import LeanDataway.QuotaConcurrent
import LeanDataway.CategoryURL

/-! The two GET requests of the endpoint: `getLogFilter` fetches the log-filter API's URL as it
is, `datakitPull` appends `&` and its arguments to the pull API's URL. The category URL carries
a `?` only when the base URL's encoded query is not empty, so on a base URL without a query the
arguments end up in the path of the pull request. -/

namespace LeanDataway

open NetUrl NetHttp

/-- The errors of the pull requests. -/
inductive PullError
  | missingAPI (msg : String)
  | newRequest (e : String)
  | send (e : TransportError)
  | readBody (e : String)
  | status (msg : String)
  deriving DecidableEq, Repr

section

variable {Point : Type} (K : Ctx Point)

/-- The GET of a pull made by the function named `fn`: the request handed to the client and the
body of a 200 answer. -/
def getBody (fn url : String) (x : Exchange) : Except PullError String × List Event :=
  match newRequest "GET" url [] with
  | .error e => (.error (.newRequest e), [])
  | .ok req =>
    match x.response with
    | .error e => (.error (.send e), [.send req])
    | .ok resp =>
      match resp.body with
      | .error e => (.error (.readBody e), [.send req])
      | .ok body =>
        (if resp.statusCode ≠ 200 then
            .error (.status (fn ++ " failed with status code " ++ toString resp.statusCode ++
              ", body: " ++ body))
          else .ok body,
          [.send req])

def getLogFilter (ep : EndPoint) (x : Exchange) : Except PullError String × List Event :=
  match ep.categoryURL.lookup K.logFilter with
  | none => (.error (.missingAPI "LogFilter API missing, should not been here"), [])
  | some url => getBody "getLogFilter" url x

def datakitPull (ep : EndPoint) (args : String) (x : Exchange) : Except PullError String × List Event :=
  match ep.categoryURL.lookup K.datakitPull with
  | none => (.error (.missingAPI "datakit pull API missing, should not been here"), [])
  | some url => getBody "datakitPull" (url ++ "&" ++ args) x

variable {K}

theorem getBody_sent (fn url : String) (x : Exchange) :
    (getBody fn url x).2.filterMap Event.sent? = (newRequest "GET" url []).toOption.toList := by
  unfold getBody
  cases newRequest "GET" url [] with
  | error e => rfl
  | ok req =>
    cases x.response with
    | error e => rfl
    | ok resp => dsimp only; cases resp.body <;> rfl

/-- The pull request goes to the pull API's category URL followed by `&` and the arguments. -/
theorem datakitPull_sent {ep : EndPoint} {url : String}
    (hurl : ep.categoryURL.lookup K.datakitPull = some url) (args : String) (x : Exchange) :
    (datakitPull K ep args x).2.filterMap Event.sent? =
      (newRequest "GET" (url ++ "&" ++ args) []).toOption.toList := by
  rw [datakitPull, hurl]
  exact getBody_sent _ _ x

theorem mem_toOption_toList {ε α : Type} {x : Except ε α} {a : α} :
    a ∈ x.toOption.toList ↔ x = .ok a := by
  cases x <;> simp [Except.toOption, eq_comm]

theorem newRequest_path_query {method url : String} {body : List UInt8} {req : Request}
    (h : newRequest method url body = .ok req) :
    ∃ u, urlParse url = .ok u ∧ req.url.path = u.path ∧ req.url.rawQuery = u.rawQuery := by
  obtain ⟨u, hu, rfl⟩ := newRequest_eq_ok h
  exact ⟨u, hu, rfl, rfl⟩

/-- Where the log-filter request goes: on an endpoint built by `newEndpoint` with the
log-filter API, for a log-filter API path that starts with `/` and holds no `?` or `#`, the GET
that `getLogFilter` hands to the client has the decoded API path as its path and the base URL's
encoded query as its query, whether or not that query is empty. -/
theorem getLogFilter_target {urlstr : String} {opts : List (Option EndPointOption)}
    {dnsCacheOk : Bool} {ep : EndPoint} (hep : newEndpoint urlstr opts dnsCacheOk = .ok ep)
    (hfilter : K.logFilter ∈ ep.apis) (hslash : K.logFilter.data.head? = some '/')
    (hapi : ∀ c ∈ K.logFilter.data, c ≠ '?' ∧ c ≠ '#') (x : Exchange) :
    ∃ u, parseRequestURI urlstr = .ok u ∧
      (getLogFilter K ep x).2.filterMap Event.sent? =
        (newRequest "GET" (categoryURLOf u.scheme u.host K.logFilter (encode u.query))
          []).toOption.toList ∧
      ∀ req ∈ (getLogFilter K ep x).2.filterMap Event.sent?,
        req.url.rawQuery = encode u.query ∧
          ∃ p, unescape .path K.logFilter.data = .ok p ∧ req.url.path = String.mk p := by
  obtain ⟨u, hu, -, -, hs, hlookup⟩ := newEndpoint_ok hep
  have hsent : (getLogFilter K ep x).2.filterMap Event.sent? =
      (newRequest "GET" (categoryURLOf u.scheme u.host K.logFilter (encode u.query))
        []).toOption.toList := by
    rw [getLogFilter, hlookup, if_pos hfilter]
    exact getBody_sent _ _ x
  refine ⟨u, hu, hsent, fun req hreq => ?_⟩
  rw [hsent, mem_toOption_toList] at hreq
  obtain ⟨u', hparse, hpath, hquery⟩ := newRequest_path_query hreq
  rw [hpath, hquery]
  exact urlParse_categoryURLOf hs (parseRequestURI_host_not_delimiter hu) hslash hapi
    (hash_not_mem_encode _) hparse

/-- An endpoint with the log-filter API on a base URL with a token. -/
def filterEndpoint : EndPoint where
  token := "T1"
  host := "gw.example"
  scheme := "https"
  categoryURL := [("/v1/logfilter/pull", "https://gw.example/v1/logfilter/pull?token=T1")]
  httpCli := some ⟨⟨0, 0, true, none⟩, 0⟩
  apis := ["/v1/logfilter/pull"]

theorem getLogFilter_target_example :
    ∃ u, parseRequestURI "https://gw.example/?token=T1" = .ok u ∧
      (getLogFilter exampleCtx filterEndpoint accepted).2.filterMap Event.sent? =
        (newRequest "GET" (categoryURLOf u.scheme u.host exampleCtx.logFilter (encode u.query))
          []).toOption.toList ∧
      ∀ req ∈ (getLogFilter exampleCtx filterEndpoint accepted).2.filterMap Event.sent?,
        req.url.rawQuery = encode u.query ∧
          ∃ p, unescape .path exampleCtx.logFilter.data = .ok p ∧ req.url.path = String.mk p :=
  getLogFilter_target (K := exampleCtx)
    (by decide : newEndpoint "https://gw.example/?token=T1"
      [some (.withAPIs ["/v1/logfilter/pull"])] true = .ok filterEndpoint)
    (by decide) (by decide) (by decide) accepted

/-- **Where the pull request goes**: on an endpoint built by `newEndpoint` with the pull API,
for a pull API path that starts with `/` and holds no `?`, `#` or `%` and arguments without `?`
or `#`, the GET that `datakitPull` hands to the client has the API path as its path and the
encoded base query, `&` and the arguments as its query when the encoded base query is not
empty. When it is empty, the query is empty and the path is the API path, `&` and the decoded
arguments. -/
theorem datakitPull_target {urlstr : String} {opts : List (Option EndPointOption)}
    {dnsCacheOk : Bool} {ep : EndPoint} (hep : newEndpoint urlstr opts dnsCacheOk = .ok ep)
    (hpull : K.datakitPull ∈ ep.apis) (hslash : K.datakitPull.data.head? = some '/')
    (hapi : ∀ c ∈ K.datakitPull.data, c ≠ '?' ∧ c ≠ '#' ∧ c ≠ '%') {args : String}
    (hargs : ∀ c ∈ args.data, c ≠ '?' ∧ c ≠ '#') (x : Exchange) :
    ∃ u, parseRequestURI urlstr = .ok u ∧
      (datakitPull K ep args x).2.filterMap Event.sent? =
        (newRequest "GET" (categoryURLOf u.scheme u.host K.datakitPull (encode u.query) ++ "&" ++
          args) []).toOption.toList ∧
      ∀ req ∈ (datakitPull K ep args x).2.filterMap Event.sent?,
        if encode u.query = "" then
          req.url.rawQuery = "" ∧ ∃ p, unescape .path args.data = .ok p ∧
            req.url.path = K.datakitPull ++ "&" ++ String.mk p
        else req.url.path = K.datakitPull ∧ req.url.rawQuery = encode u.query ++ "&" ++ args := by
  obtain ⟨u, hu, -, -, hs, hlookup⟩ := newEndpoint_ok hep
  have hsent := datakitPull_sent (K := K) ((hlookup _).trans (if_pos hpull)) args x
  refine ⟨u, hu, hsent, fun req hreq => ?_⟩
  rw [hsent, mem_toOption_toList] at hreq
  obtain ⟨u', hparse, hpath, hquery⟩ := newRequest_path_query hreq
  rw [hpath, hquery]
  rw [String.append_assoc, categoryURLOf_append] at hparse
  have hhost := parseRequestURI_host_not_delimiter hu
  have hapiPct : '%' ∉ K.datakitPull.data := fun hc => (hapi _ hc).2.2 rfl
  split
  · rename_i hq
    rw [if_pos hq, ← String.append_assoc] at hparse
    have hpathOk : ∀ c ∈ (K.datakitPull ++ "&" ++ args).data, c ≠ '?' ∧ c ≠ '#' := by
      simp only [String.data_append, List.mem_append]
      rintro c ((hc | hc) | hc)
      · exact ⟨(hapi c hc).1, (hapi c hc).2.1⟩
      · obtain rfl : c = '&' := by simpa using hc
        decide
      · exact hargs c hc
    obtain ⟨hraw, p, hp, hpath'⟩ := urlParse_categoryURLOf hs hhost
      (by simp [List.head?_append, hslash]) hpathOk (by decide) hparse
    rw [String.data_append, String.data_append,
      unescape_path_append (by simpa using hapiPct) args.data] at hp
    obtain ⟨p', hp', rfl⟩ := map_eq_ok hp
    refine ⟨hraw, p', hp', ?_⟩
    rw [hpath', String.ext_iff]
    simp
  · rename_i hq
    rw [if_neg hq, ← String.append_assoc] at hparse
    have hqueryHash : '#' ∉ (encode u.query ++ "&" ++ args).data := by
      simp only [String.data_append, List.mem_append, not_or]
      exact ⟨⟨hash_not_mem_encode _, by decide⟩, fun hc => (hargs _ hc).2 rfl⟩
    obtain ⟨hraw, p, hp, hpath'⟩ := urlParse_categoryURLOf hs hhost hslash
      (fun c hc => ⟨(hapi c hc).1, (hapi c hc).2.1⟩) hqueryHash hparse
    have hdp : unescape .path K.datakitPull.data = .ok K.datakitPull.data := by
      simpa [unescape] using unescape_path_append hapiPct []
    rw [hdp] at hp
    cases hp
    exact ⟨hpath', hraw⟩

/-- An endpoint with the pull API on a base URL without a query. -/
def pullEndpoint : EndPoint where
  token := ""
  host := "gw.example"
  scheme := "https"
  categoryURL := [("/v1/datakit/pull", "https://gw.example/v1/datakit/pull")]
  httpCli := some ⟨⟨0, 0, true, none⟩, 0⟩
  apis := ["/v1/datakit/pull"]

example : newEndpoint "https://gw.example" [some (.withAPIs ["/v1/datakit/pull"])] true =
    .ok pullEndpoint := by
  decide

theorem datakitPull_target_example :
    ∃ u, parseRequestURI "https://gw.example" = .ok u ∧
      (datakitPull exampleCtx pullEndpoint "host=h1" accepted).2.filterMap Event.sent? =
        (newRequest "GET" (categoryURLOf u.scheme u.host exampleCtx.datakitPull (encode u.query) ++
          "&" ++ "host=h1") []).toOption.toList ∧
      ∀ req ∈ (datakitPull exampleCtx pullEndpoint "host=h1" accepted).2.filterMap Event.sent?,
        if encode u.query = "" then
          req.url.rawQuery = "" ∧ ∃ p, unescape .path "host=h1".data = .ok p ∧
            req.url.path = exampleCtx.datakitPull ++ "&" ++ String.mk p
        else req.url.path = exampleCtx.datakitPull ∧
          req.url.rawQuery = encode u.query ++ "&" ++ "host=h1" :=
  datakitPull_target (K := exampleCtx)
    (by decide : newEndpoint "https://gw.example" [some (.withAPIs ["/v1/datakit/pull"])] true =
      .ok pullEndpoint)
    (by decide) (by decide) (by decide) (by decide) accepted

theorem datakitPull_args_in_path :
    ((datakitPull exampleCtx pullEndpoint "host=h1" accepted).2.filterMap Event.sent?).map
        (fun req => (req.url.path, req.url.rawQuery)) =
      [("/v1/datakit/pull&host=h1", "")] := by
  decide

end

end LeanDataway
