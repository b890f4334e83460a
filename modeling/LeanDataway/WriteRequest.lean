import LeanDataway.WriteCache
import LeanDataway.CategoryURL

/-! Which requests the write path hands to the client, which dial-testing reports it makes, and
what its counters record. A body's request depends on the endpoint, the writer's route and the
body alone, never on the answers to earlier bodies: the writer's gzip flag, the one field the loop
rewrites, is set from each body before it is read. The counters are deferred once the route is
resolved, so they count every routed body, delivered or not. -/

namespace LeanDataway

open NetUrl NetHttp

section

variable {Point : Type} {K : Ctx Point}

theorem writePointData_sent (ep : EndPoint) (b : Body) (w : Writer Point) (x : Exchange)
    (flag : BitVec 64) :
    (writePointData K ep b w x flag).events.filterMap Event.sent? =
      match resolveURL ep w with
      | .error _ => []
      | .ok (requrl, _) =>
        match buildRequest K requrl w b with
        | .ok req => [req]
        | .error _ => [] := by
  cases hr : resolveURL ep w with
  | error e => simp [writePointData_of_resolveURL_error hr]
  | ok r =>
    obtain ⟨requrl, dialTesting⟩ := r
    rw [writePointData_of_resolveURL_ok hr, postAndClassify_events]
    split <;> split <;> simp [*]

/-- One body, one request at most: the one built for the writer's route, whatever the answer
and the flag. -/
theorem writeBody_sent (ep : EndPoint) (w : Writer Point) (b : Body) (x : Exchange)
    (flag : BitVec 64) :
    (writeBody K ep w b x flag).events.filterMap Event.sent? =
      match resolveURL ep w with
      | .error _ => []
      | .ok (requrl, _) =>
        match buildRequest K requrl { w with gzip := b.gzon } b with
        | .ok req => [req]
        | .error _ => [] := by
  rw [writeBody_eq, List.filterMap_append, writePointData_sent, resolveURL_gzip]
  cases (writePointData K ep b { w with gzip := b.gzon } x flag).result <;>
    simp [cacheOnFailure_filterMap (p := Event.sent?) fun _ _ => rfl]

/-- Where a write's POST goes, as the spec states it: the category's URL when the category is an
API path, else the dynamic URL when it is not empty and parses. -/
def postTarget (u : URL) (apis : List String) (w : Writer Point) : Option String :=
  if w.category ∈ apis then some (categoryURLOf u.scheme u.host w.category (encode u.query))
  else if w.dynamicURL = "" then none
  else match parseRequestURI w.dynamicURL with
    | .ok _ => some w.dynamicURL
    | .error _ => none

/-- The requests of one body, as the spec states them: the POST of the body's bytes that
`http.NewRequest` builds for the writer's target, when there is a target and the request can be
built, and nothing otherwise; it carries `Content-Encoding: gzip` exactly when the body is
gzipped. -/
def PostsOf (u : URL) (apis : List String) (w : Writer Point) (b : Body)
    (reqs : List Request) : Prop :=
  reqs.map (fun req => { req with header := ⟨[]⟩ }) =
      ((postTarget u apis w).toList.flatMap fun target =>
        (newRequest "POST" target b.buf).toOption.toList) ∧
    ∀ req ∈ reqs, req.header.values "Content-Encoding" = if b.gzon then ["gzip"] else []

/-- On an endpoint built from `u`, the route of `writePointData` is the spec's target. -/
theorem postTarget_eq {ep : EndPoint} {u : URL}
    (hlookup : ∀ c, ep.categoryURL.lookup c =
      if c ∈ ep.apis then some (categoryURLOf u.scheme u.host c (encode u.query)) else none)
    (w : Writer Point) : postTarget u ep.apis w = (resolveURL ep w).toOption.map Prod.fst := by
  unfold postTarget resolveURL
  rw [hlookup]
  by_cases hc : w.category ∈ ep.apis
  · simp [hc, Except.toOption]
  · by_cases hd : w.dynamicURL = ""
    · simp [hc, hd, Except.toOption]
    · cases hp : parseRequestURI w.dynamicURL <;> simp [hc, hd, hp, Except.toOption]

theorem buildRequest_map_header (requrl : String) (w : Writer Point) (b : Body) :
    (buildRequest K requrl w b).toOption.toList.map (fun req => { req with header := ⟨[]⟩ }) =
      (newRequest "POST" requrl b.buf).toOption.toList := by
  cases h : buildRequest K requrl w b with
  | ok req =>
    obtain ⟨req0, h0, rfl⟩ := buildRequest_eq_ok h
    simp only [Except.toOption, Option.toList, h0, List.map_cons, List.map_nil]
    rw [← newRequest_header h0]
  | error e =>
    unfold buildRequest at h
    cases h0 : newRequest "POST" requrl b.buf with
    | error e' => rfl
    | ok req0 => simp [h0] at h

/-- The header of a built request: `Content-Encoding` is `gzip` exactly for a gzipping writer,
when no extra header has that canonical key. -/
theorem buildRequest_contentEncoding {requrl : String} {w : Writer Point} {b : Body}
    {req : Request} (h : buildRequest K requrl w b = .ok req)
    (hhdr : ∀ kv ∈ K.extraHeaders, canonicalMIMEHeaderKey kv.1 ≠ "Content-Encoding") :
    req.header.values "Content-Encoding" = if w.gzip then ["gzip"] else [] := by
  obtain ⟨req0, h0, rfl⟩ := buildRequest_eq_ok h
  rw [Header.values_foldl_set _ _ hhdr, newRequest_header h0]
  split
  · exact Header.values_set_self ⟨[]⟩ "Content-Encoding" "gzip"
  · rfl

/-- The request does not depend on the order of `ExtraHeaders`: Go visits a map in no fixed
order; when no two extra headers have the same canonical key, every order of them builds a
request with the same method, URL, body and header values, or fails with the same error. -/
theorem buildRequest_extraHeaders_perm {l : List (String × String)}
    (hperm : l.Perm K.extraHeaders)
    (hnd : (K.extraHeaders.map fun kv => canonicalMIMEHeaderKey kv.1).Nodup) (requrl : String)
    (w : Writer Point) (b : Body) :
    (buildRequest { K with extraHeaders := l } requrl w b).map
        (fun req => (req.method, req.url, req.body, req.header.values)) =
      (buildRequest K requrl w b).map
        fun req => (req.method, req.url, req.body, req.header.values) := by
  unfold buildRequest
  cases newRequest "POST" requrl b.buf with
  | error e => rfl
  | ok req0 =>
    simp only [foldl_set_header, Except.map]
    refine congrArg Except.ok (Prod.ext rfl (Prod.ext rfl (Prod.ext rfl (funext fun k => ?_))))
    exact Header.foldl_set_perm hperm ((hperm.map _).nodup_iff.mpr hnd) (fun _ => rfl) k

def headerCtx : Ctx (List UInt8) :=
  { exampleCtx with extraHeaders := [("X-Token", "T1"), ("x-trace", "on")] }

theorem buildRequest_extraHeaders_perm_example :
    (buildRequest { headerCtx with extraHeaders := [("x-trace", "on"), ("X-Token", "T1")] }
        "https://gw.example/v1/write/logging?token=T1" loggingWriter pointBody).map
        (fun req => (req.method, req.url, req.body, req.header.values)) =
      (buildRequest headerCtx "https://gw.example/v1/write/logging?token=T1" loggingWriter
        pointBody).map fun req => (req.method, req.url, req.body, req.header.values) :=
  buildRequest_extraHeaders_perm (K := headerCtx) (by decide) (by decide) _ _ _

theorem writeBody_postsOf {ep : EndPoint} {u : URL}
    (hlookup : ∀ c, ep.categoryURL.lookup c =
      if c ∈ ep.apis then some (categoryURLOf u.scheme u.host c (encode u.query)) else none)
    (hhdr : ∀ kv ∈ K.extraHeaders, canonicalMIMEHeaderKey kv.1 ≠ "Content-Encoding")
    (w : Writer Point) (b : Body) (x : Exchange) (flag : BitVec 64) :
    PostsOf u ep.apis w b ((writeBody K ep w b x flag).events.filterMap Event.sent?) := by
  rw [writeBody_sent, PostsOf, postTarget_eq hlookup]
  rcases resolveURL ep w with e | ⟨requrl, dialTesting⟩
  · exact ⟨rfl, by simp⟩
  · have hmap := buildRequest_map_header (K := K) requrl { w with gzip := b.gzon } b
    dsimp only
    split <;> rename_i hreq <;> rw [hreq] at hmap
    · refine ⟨by simpa [Except.toOption] using hmap, fun r hr => ?_⟩
      rw [List.mem_singleton.mp hr]
      simpa using buildRequest_contentEncoding hreq hhdr
    · exact ⟨by simpa [Except.toOption] using hmap, by simp⟩

theorem writePoints_requests (urlstr : String) (opts : List (Option EndPointOption))
    (dnsCacheOk : Bool) (ep : EndPoint) (hep : newEndpoint urlstr opts dnsCacheOk = .ok ep)
    (hhdr : ∀ kv ∈ K.extraHeaders, canonicalMIMEHeaderKey kv.1 ≠ "Content-Encoding")
    (w : Writer Point) (bodies : List Body)
    (hbodies : K.buildBody w.pts K.maxKodoBody = .ok bodies) (xs : Nat → Exchange)
    (flag : BitVec 64) :
    ∃ u, parseRequestURI urlstr = .ok u ∧ ∃ per : List (List Request),
      (writePoints K ep w xs flag).events.filterMap Event.sent? = per.flatten ∧
        List.Forall₂ (PostsOf u ep.apis w) bodies per := by
  obtain ⟨u, hu, -, -, -, hlookup⟩ := newEndpoint_ok hep
  obtain ⟨per, hper, hall⟩ := writeBodies_events (K := K) ep w bodies xs flag
  refine ⟨u, hu, per.map (List.filterMap Event.sent?), ?_, ?_⟩
  · simp [writePoints, hbodies, hper, List.filterMap_flatten]
  · rw [List.forall₂_map_right_iff]
    exact hall.imp fun b evs ⟨x, f, h⟩ => h ▸ writeBody_postsOf hlookup hhdr w b x f

theorem writePoints_requests_example :
    newEndpoint "https://gw.example/?token=T1"
        [some (.withAPIs ["/v1/write/metric", "/v1/write/logging"])] true = .ok gwEndpoint ∧
      ∃ u, parseRequestURI "https://gw.example/?token=T1" = .ok u ∧ ∃ per : List (List Request),
        (writePoints exampleCtx gwEndpoint loggingWriter (fun _ => unavailable) 0).events.filterMap
          Event.sent? = per.flatten ∧
        List.Forall₂ (PostsOf u gwEndpoint.apis loggingWriter) [pointBody] per :=
  have hep : newEndpoint "https://gw.example/?token=T1"
      [some (.withAPIs ["/v1/write/metric", "/v1/write/logging"])] true = .ok gwEndpoint := by
    decide
  ⟨hep, writePoints_requests _ _ _ _ hep (by simp [exampleCtx]) loggingWriter [pointBody] rfl _ 0⟩

/-- The request built for a URL that `url.Parse` accepts: the parsed URL, with an empty port
dropped from its host, and the body's bytes. -/
theorem buildRequest_url_body {requrl : String} {u : URL} (hu : urlParse requrl = .ok u)
    (w : Writer Point) (b : Body) :
    ∃ req, buildRequest K requrl w b = .ok req ∧
      req.url = { u with host := removeEmptyPort u.host } ∧ req.body = b.buf := by
  have hreq : newRequest "POST" requrl b.buf = .ok
      { method := "POST", url := { u with host := removeEmptyPort u.host }, header := ⟨[]⟩,
        body := b.buf, host := removeEmptyPort u.host } := by
    rw [newRequest, if_neg (by decide), hu]
    rfl
  simp only [buildRequest, hreq, foldl_set_header]
  refine ⟨_, rfl, ?_, ?_⟩ <;> split <;> rfl

/-- What a request's header holds: a key holds the value of the last extra header whose
canonical key it is, in the order the range loop visits `ExtraHeaders`; a key that no extra header
sets holds `gzip` when it is `Content-Encoding` and the writer gzips, and nothing otherwise. -/
theorem buildRequest_header_values {requrl : String} {w : Writer Point} {b : Body}
    {req : Request} (h : buildRequest K requrl w b = .ok req) (k : String) :
    req.header.values k =
      match (K.extraHeaders.filter fun kv => canonicalMIMEHeaderKey kv.1 == k).getLast? with
      | some kv => [kv.2]
      | none => if w.gzip && k == "Content-Encoding" then ["gzip"] else [] := by
  obtain ⟨req0, h0, rfl⟩ := buildRequest_eq_ok h
  have hce : canonicalMIMEHeaderKey "Content-Encoding" = "Content-Encoding" := by decide
  rw [Header.values_foldl_set_last, newRequest_header h0]
  cases (K.extraHeaders.filter fun kv => canonicalMIMEHeaderKey kv.1 == k).getLast? with
  | some kv => rfl
  | none =>
    cases w.gzip
    · rfl
    · rw [if_pos rfl, Header.values_set, hce]
      by_cases hk : k = "Content-Encoding"
      · simp [hk]
      · simp [hk, Ne.symm hk, Header.values]

def tokenCtx : Ctx (List UInt8) :=
  { exampleCtx with extraHeaders := [("X-Token", "T1"), ("x-token", "T2")] }

theorem buildRequest_header_values_example :
    ∃ req, buildRequest tokenCtx "https://gw.example/v1/write/metric?token=T1" loggingWriter
      pointBody = .ok req ∧ req.header.values "X-Token" = ["T2"] := by
  obtain ⟨req, hreq, -⟩ :=
    buildRequest_url_body (K := tokenCtx)
      (by decide : urlParse "https://gw.example/v1/write/metric?token=T1" = .ok metricURL)
      loggingWriter pointBody
  exact ⟨req, hreq, (buildRequest_header_values hreq "X-Token").trans (by decide)⟩

/-- The requests of a writer whose route is a URL that `url.Parse` accepts: one per body, in
order and whatever the answers, to the parsed URL with an empty port dropped, carrying the body's
bytes. -/
theorem writePoints_sent_of_route {ep : EndPoint} {w : Writer Point} {requrl : String}
    {dialTesting : Bool} (hr : resolveURL ep w = .ok (requrl, dialTesting)) {u : URL}
    (hu : urlParse requrl = .ok u) {bodies : List Body}
    (hbodies : K.buildBody w.pts K.maxKodoBody = .ok bodies) (xs : Nat → Exchange)
    (flag : BitVec 64) :
    ((writePoints K ep w xs flag).events.filterMap Event.sent?).map
        (fun req => (req.url, req.body)) =
      bodies.map fun b => ({ u with host := removeEmptyPort u.host }, b.buf) := by
  have hbody : ∀ b x f, (writeBody K ep w b x f).events.filterMap
      (fun e => (Event.sent? e).map fun req => (req.url, req.body)) =
        [({ u with host := removeEmptyPort u.host }, b.buf)] := fun b x f => by
    obtain ⟨req, hreq, hurl, hbody⟩ := buildRequest_url_body (K := K) hu { w with gzip := b.gzon } b
    rw [← List.map_filterMap, writeBody_sent, hr]
    simp only [hreq, List.map_cons, List.map_nil, hurl, hbody]
  obtain ⟨per, hper, hall⟩ := writeBodies_events (K := K) ep w bodies xs flag
  simp only [writePoints, hbodies, hper, List.map_filterMap]
  rw [filterMap_flatten_of_forall₂ (hall.imp fun b _ ⟨x, f, h⟩ => h ▸ hbody b x f)]
  simp [List.map_eq_flatMap]

/-- **Every routed body is sent, once and in order, to its API's URL**: on an endpoint built by
`newEndpoint` whose host holds no `%`, for a writer whose category is an API path that starts
with `/`, holds no `?`, `#` or control character and decodes, `writePoints` hands the client one
request per body, in order and whatever the answers, carrying the body's bytes to the endpoint's
scheme and host (an empty port dropped), the decoded API path and the base URL's encoded query:
building the request never fails. -/
theorem writePoints_routed_requests {urlstr : String} {opts : List (Option EndPointOption)}
    {dnsCacheOk : Bool} {ep : EndPoint} (hep : newEndpoint urlstr opts dnsCacheOk = .ok ep)
    (hpct : '%' ∉ ep.host.data) {w : Writer Point} (hcat : w.category ∈ ep.apis)
    (hslash : w.category.data.head? = some '/')
    (hapi : ∀ c ∈ w.category.data, c ≠ '?' ∧ c ≠ '#' ∧ isCTL c = false) {p : List Char}
    (hp : unescape .path w.category.data = .ok p) {bodies : List Body}
    (hbodies : K.buildBody w.pts K.maxKodoBody = .ok bodies) (xs : Nat → Exchange)
    (flag : BitVec 64) :
    ∃ u, parseRequestURI urlstr = .ok u ∧
      ((writePoints K ep w xs flag).events.filterMap Event.sent?).map
          (fun req => (req.url, req.body)) =
        bodies.map fun b =>
          ({ scheme := ep.scheme, host := removeEmptyPort ep.host, path := String.mk p,
             rawPath := if escape .path p == w.category.data then "" else w.category,
             rawQuery := encode u.query }, b.buf) := by
  obtain ⟨u, hu, hsch, hhost, hs, hlookup⟩ := newEndpoint_ok hep
  have hurl := (hlookup w.category).trans (if_pos hcat)
  rw [hhost] at hpct
  obtain ⟨hauth, hchars⟩ := parse_host_reparse (parseRequestURI_eq_ok.mp hu) hpct
  have hparse := urlParse_categoryURLOf_eq (q := encode u.query) hs hchars hauth hslash hapi
    (fun c hc => ⟨fun e => hash_not_mem_encode _ (e ▸ hc), encode_not_isCTL _ c hc⟩) hp
  rw [hsch, hhost]
  exact ⟨u, hu, writePoints_sent_of_route (resolveURL_of_lookup hurl) hparse hbodies xs flag⟩

theorem writePoints_routed_requests_example :
    ∃ u, parseRequestURI "https://gw.example/?token=T1" = .ok u ∧
      ((writePoints exampleCtx gwEndpoint loggingWriter (fun _ => unavailable) 0).events.filterMap
          Event.sent?).map (fun req => (req.url, req.body)) =
        [pointBody].map fun b =>
          ({ scheme := gwEndpoint.scheme, host := removeEmptyPort gwEndpoint.host,
             path := String.mk "/v1/write/logging".data,
             rawPath := if escape .path "/v1/write/logging".data == loggingWriter.category.data
               then "" else loggingWriter.category,
             rawQuery := encode u.query }, b.buf) :=
  writePoints_routed_requests
    (by decide : newEndpoint "https://gw.example/?token=T1"
      [some (.withAPIs ["/v1/write/metric", "/v1/write/logging"])] true = .ok gwEndpoint)
    (by decide) (by decide) (by decide) (by decide) (by decide) rfl _ 0

/-- A dial-testing write goes where its dynamic URL was checked: for a writer whose category
has no route and whose dynamic URL `url.ParseRequestURI` accepts with a scheme and without `#`,
`writePoints` hands the client one request per body, in order and whatever the answers, carrying
the body's bytes to that parsed URL (an empty port dropped): `http.NewRequest`, which parses with
`url.Parse`, reads the URL as the check did. -/
theorem writePoints_dynamic_requests {ep : EndPoint} {w : Writer Point} {u : URL}
    (hnot : ep.categoryURL.lookup w.category = none) (hu : parseRequestURI w.dynamicURL = .ok u)
    (hscheme : u.scheme ≠ "") (hfrag : '#' ∉ w.dynamicURL.data) {bodies : List Body}
    (hbodies : K.buildBody w.pts K.maxKodoBody = .ok bodies) (xs : Nat → Exchange)
    (flag : BitVec 64) :
    ((writePoints K ep w xs flag).events.filterMap Event.sent?).map
        (fun req => (req.url, req.body)) =
      bodies.map fun b => ({ u with host := removeEmptyPort u.host }, b.buf) := by
  have hd : w.dynamicURL ≠ "" := fun he => by
    rw [he] at hu
    cases hu
  exact writePoints_sent_of_route (resolveURL_of_dynamic hnot hd hu)
    (urlParse_of_parseRequestURI hu hfrag hscheme) hbodies xs flag

/-- A dial-testing writer: a category the endpoint does not route, and a dynamic URL. -/
def dialWriter : Writer (List UInt8) :=
  ⟨"dynamicDatawayCategory", [[1]], false, false, none,
    "https://dt.example/v1/write/logging?token=T2", false⟩

def dialURL : URL where
  scheme := "https"
  host := "dt.example"
  path := "/v1/write/logging"
  rawQuery := "token=T2"

theorem writePoints_dynamic_requests_example :
    ((writePoints exampleCtx gwEndpoint dialWriter (fun _ => unavailable) 0).events.filterMap
        Event.sent?).map (fun req => (req.url, req.body)) =
      [pointBody].map fun b => ({ dialURL with host := removeEmptyPort dialURL.host }, b.buf) :=
  writePoints_dynamic_requests (by decide) (by decide) (by decide) (by decide) rfl _ 0

/-- A body whose route `url.Parse` rejects: nothing is sent, and the `NewRequest` error goes to
the cache as every failure other than a 4xx answer does. -/
theorem writeBody_of_urlParse_error {ep : EndPoint} {w : Writer Point} {requrl : String}
    {dialTesting : Bool} (hr : resolveURL ep w = .ok (requrl, dialTesting)) {e : String}
    (hu : urlParse requrl = .error e) (b : Body) (x : Exchange) (flag : BitVec 64) :
    (writeBody K ep w b x flag).events.filterMap Event.sent? = [] ∧
      (writeBody K ep w b x flag).events.filterMap Event.put? =
        (cacheOnFailure K { w with gzip := b.gzon } b (.newRequest e)).filterMap Event.put? := by
  have hb : ∀ w' : Writer Point, buildRequest K requrl w' b = .error e := fun w' => by
    rw [buildRequest, newRequest, if_neg (by decide), hu]
  constructor
  · rw [writeBody_sent, hr]
    simp only [hb]
  · rw [writeBody_puts, writePointData_of_resolveURL_ok (w := { w with gzip := b.gzon }) hr]
    simp only [postAndClassify, hb]

/-- A zone in the base URL breaks every routed write: on an endpoint built by `newEndpoint`
whose host holds a `%` whose first occurrence is not followed by two hexadecimal digits, for a
writer whose category is an API path that starts with `/` and holds no `?` or `#`, `writePoints`
returns no error but hands the client no request: every body fails at `http.NewRequest` and goes
to the writer's cache by the cache policy. -/
theorem writePoints_bad_escape_host {urlstr : String} {opts : List (Option EndPointOption)}
    {dnsCacheOk : Bool} {ep : EndPoint} (hep : newEndpoint urlstr opts dnsCacheOk = .ok ep)
    {a r : List Char} (hhost : ep.host.data = a ++ '%' :: r) (ha : '%' ∉ a)
    (hbad : ∀ c1 c2 rest, r = c1 :: c2 :: rest → unhex c1 = none ∨ unhex c2 = none)
    {w : Writer Point} (hcat : w.category ∈ ep.apis) (hslash : w.category.data.head? = some '/')
    (hapi : ∀ c ∈ w.category.data, c ≠ '?' ∧ c ≠ '#') {bodies : List Body}
    (hbodies : K.buildBody w.pts K.maxKodoBody = .ok bodies) (xs : Nat → Exchange)
    (flag : BitVec 64) :
    (writePoints K ep w xs flag).result.1 = .ok () ∧
      (writePoints K ep w xs flag).events.filterMap Event.sent? = [] ∧
      (writePoints K ep w xs flag).events.filterMap Event.put? =
        match w.fc with
        | none => []
        | some fc =>
          if w.cacheAll || !(uncachedCategories K).contains w.category then
            bodies.map fun b => (fc, K.marshal ⟨int32 (K.catURL w.category), int32 b.payload, b.buf⟩)
          else [] := by
  obtain ⟨u, hu, -, hh, hs, hlookup⟩ := newEndpoint_ok hep
  have hurl := (hlookup w.category).trans (if_pos hcat)
  obtain ⟨e0, he0⟩ := parseHost_error_of_bad_escape ha hbad
  rw [← hhost, hh] at he0
  obtain ⟨e, he⟩ := urlParse_categoryURLOf_error hs (parseRequestURI_host_not_delimiter hu)
    (parse_host_at (parseRequestURI_eq_ok.mp hu)) he0 hslash hapi (hash_not_mem_encode _)
  have hbody := writeBody_of_urlParse_error (K := K) (resolveURL_of_lookup hurl) he
  obtain ⟨per, hper, hall⟩ := writeBodies_events (K := K) ep w bodies xs flag
  simp only [writePoints, hbodies, hper]
  refine ⟨trivial, ?_, ?_⟩
  · rw [filterMap_flatten_of_forall₂ (f := fun _ => [])
      (hall.imp fun b _ ⟨x, f, h⟩ => h ▸ (hbody b x f).1)]
    simp
  · cases hfc : w.fc with
    | none =>
      rw [filterMap_flatten_of_forall₂ (f := fun _ => []) (hall.imp fun b _ ⟨x, f, h⟩ =>
        h ▸ (hbody b x f).2.trans (cacheOnFailure_puts_of_none hfc b _))]
      simp
    | some fc =>
      rw [filterMap_flatten_of_forall₂ (hall.imp fun b _ ⟨x, f, h⟩ =>
        h ▸ (hbody b x f).2.trans (cacheOnFailure_puts hfc b (by simp)))]
      split <;> simp [List.map_eq_flatMap]

theorem writePoints_bad_escape_host_example :
    (writePoints exampleCtx zoneEndpoint loggingWriter (fun _ => unavailable) 0).events.filterMap
        Event.sent? = [] ∧
      (writePoints exampleCtx zoneEndpoint loggingWriter (fun _ => unavailable) 0).events.filterMap
        Event.put? = [(⟨0⟩, [1])] :=
  have h := writePoints_bad_escape_host (K := exampleCtx)
    (by decide : newEndpoint "http://[fe80::1%25en0]:9528/?token=T1"
      [some (.withAPIs ["/v1/write/metric", "/v1/write/logging"])] true = .ok zoneEndpoint)
    (a := "[fe80::1".data) (r := ['e', 'n', '0', ']', ':', '9', '5', '2', '8']) (by decide)
    (by decide) (fun _ _ _ h => by cases h; decide) (w := loggingWriter) (by decide) (by decide)
    (by decide) rfl (fun _ => unavailable) 0
  ⟨h.2.1, h.2.2.trans (by decide)⟩

/-- The dial-testing report of one call: one for a write through the dynamic URL, always as a
failure, since it reads `httpCode`, which no path of `writePointData` assigns; none otherwise. -/
theorem writePointData_dialTest (ep : EndPoint) (b : Body) (w : Writer Point) (x : Exchange)
    (flag : BitVec 64) :
    (writePointData K ep b w x flag).events.filterMap Event.dialTest? =
      match resolveURL ep w with
      | .ok (requrl, true) => [(requrl, false)]
      | _ => [] := by
  cases hr : resolveURL ep w with
  | error e => simp [writePointData_of_resolveURL_error hr]
  | ok r =>
    obtain ⟨requrl, dialTesting⟩ := r
    rw [writePointData_of_resolveURL_ok hr, postAndClassify_events]
    cases dialTesting <;> split <;> simp

def accepted : Exchange := ⟨.ok ⟨200, .ok ""⟩, 1700000000⟩

theorem writePointData_reports_accepted_dial_test_failed :
    (writePointData exampleCtx gwEndpoint pointBody dialWriter accepted 0).result = .ok () ∧
      (writePointData exampleCtx gwEndpoint pointBody dialWriter accepted 0).events.filterMap
        Event.dialTest? = [("https://dt.example/v1/write/logging?token=T2", false)] := by
  decide

theorem writeBody_dialTest (ep : EndPoint) (w : Writer Point) (b : Body) (x : Exchange)
    (flag : BitVec 64) :
    (writeBody K ep w b x flag).events.filterMap Event.dialTest? =
      match resolveURL ep w with
      | .ok (requrl, true) => [(requrl, false)]
      | _ => [] := by
  rw [writeBody_eq, List.filterMap_append, writePointData_dialTest, resolveURL_gzip]
  cases (writePointData K ep b { w with gzip := b.gzon } x flag).result <;>
    simp [cacheOnFailure_filterMap (p := Event.dialTest?) fun _ _ => rfl]

/-- Dial testing hears of every body of a write through the dynamic URL, in order and always as a
failure, whatever the answers; a routed write, or one whose route fails, reports nothing. -/
theorem writePoints_dialTest (ep : EndPoint) (w : Writer Point) (xs : Nat → Exchange)
    (flag : BitVec 64) {bodies : List Body} (hbodies : K.buildBody w.pts K.maxKodoBody = .ok bodies) :
    (writePoints K ep w xs flag).events.filterMap Event.dialTest? =
      match resolveURL ep w with
      | .ok (requrl, true) => bodies.map fun _ => (requrl, false)
      | _ => [] := by
  obtain ⟨per, hper, hall⟩ := writeBodies_events (K := K) ep w bodies xs flag
  simp only [writePoints, hbodies, hper]
  rw [filterMap_flatten_of_forall₂ (hall.imp fun b _ ⟨x, f, h⟩ => h ▸ writeBody_dialTest ep w b x f)]
  rcases resolveURL ep w with e | ⟨requrl, _ | _⟩ <;> simp [List.map_eq_flatMap]

theorem writePoints_dialTest_example :
    exampleCtx.buildBody dialWriter.pts exampleCtx.maxKodoBody = .ok [pointBody] ∧
      (writePoints exampleCtx gwEndpoint dialWriter (fun _ => accepted) 0).events.filterMap
        Event.dialTest? = [(dialWriter.dynamicURL, false)] :=
  ⟨rfl, (writePoints_dialTest gwEndpoint dialWriter _ 0 rfl).trans (by decide)⟩

/-! ### The counters -/

/-- What the counters record of one call, less the status label: the category label, the bytes,
the points, and whether the writer sinks. -/
def Event.counted? (e : Event) : Option (String × Nat × Nat × Bool) :=
  (Event.metric? e).map fun m => (m.1, m.2.2)

theorem writePointData_counted (ep : EndPoint) (b : Body) (w : Writer Point) (x : Exchange)
    (flag : BitVec 64) :
    (writePointData K ep b w x flag).events.filterMap Event.counted? =
      if (resolveURL ep w).isOk then [(metricCategory K w, b.buf.length, b.npts, w.isSinker)]
      else [] := by
  cases hr : resolveURL ep w with
  | error e => simp [writePointData_of_resolveURL_error hr, Except.isOk, Except.toBool]
  | ok r =>
    obtain ⟨requrl, dialTesting⟩ := r
    rw [writePointData_of_resolveURL_ok hr, postAndClassify_events]
    split <;> cases dialTesting <;> simp [Event.counted?, Except.isOk, Except.toBool]

theorem writeBody_counted (ep : EndPoint) (w : Writer Point) (b : Body) (x : Exchange)
    (flag : BitVec 64) :
    (writeBody K ep w b x flag).events.filterMap Event.counted? =
      if (resolveURL ep w).isOk then [(metricCategory K w, b.buf.length, b.npts, w.isSinker)]
      else [] := by
  rw [writeBody_eq, List.filterMap_append, writePointData_counted, resolveURL_gzip]
  cases (writePointData K ep b { w with gzip := b.gzon } x flag).result <;>
    simp [cacheOnFailure_filterMap (p := Event.counted?) fun _ _ => rfl, metricCategory]

/-- The counters count every body once: when the writer's route resolves, the deferred
counters of `writePoints` record each body in order, with the writer's category label, the body's
bytes and points and the writer's sink flag, whether or not its delivery succeeds; when the route
does not resolve, they record nothing. -/
theorem writePoints_counted (ep : EndPoint) (w : Writer Point) (xs : Nat → Exchange)
    (flag : BitVec 64) {bodies : List Body} (hbodies : K.buildBody w.pts K.maxKodoBody = .ok bodies) :
    (writePoints K ep w xs flag).events.filterMap Event.counted? =
      if (resolveURL ep w).isOk then
        bodies.map fun b => (metricCategory K w, b.buf.length, b.npts, w.isSinker)
      else [] := by
  obtain ⟨per, hper, hall⟩ := writeBodies_events (K := K) ep w bodies xs flag
  simp only [writePoints, hbodies, hper]
  rw [filterMap_flatten_of_forall₂ (hall.imp fun b _ ⟨x, f, h⟩ => h ▸ writeBody_counted ep w b x f)]
  split <;> simp [List.map_eq_flatMap]

theorem writePoints_counted_example :
    exampleCtx.buildBody loggingWriter.pts exampleCtx.maxKodoBody = .ok [pointBody] ∧
      (writePoints exampleCtx gwEndpoint loggingWriter (fun _ => unavailable) 0).events.filterMap
        Event.counted? = [("", 1, 1, false)] :=
  ⟨rfl, (writePoints_counted gwEndpoint loggingWriter _ 0 rfl).trans (by decide)⟩

end

end LeanDataway
