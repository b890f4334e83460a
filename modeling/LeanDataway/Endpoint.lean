import LeanDataway.NetHttp

/-! The dataway endpoint (`endPoint`) and its construction by `newEndpoint`: the base URL is
parsed, the options are applied, every API path gets its category URL, and the HTTP client is
set up. The retrying client itself (`newRetryCli`) is outside `src/`; the endpoint keeps the
options it is built from. -/

namespace LeanDataway

open NetUrl NetHttp

/-- The options `setupHTTP` hands to the client (`ihttp.Options`); `dnsCache` says whether the
DNS-caching dial function is set. Durations are nanoseconds. -/
structure ClientOptions where
  dialTimeout : Int
  maxIdleConnsPerHost : Int
  dnsCache : Bool
  proxyURL : Option URL
  deriving DecidableEq, Repr

/-- The arguments of `newRetryCli`, which builds the retrying client. -/
structure RetryCli where
  options : ClientOptions
  timeout : Int
  deriving DecidableEq, Repr

/-- `endPoint`; `categoryURL` is the map from API path to URL, the newest write first. -/
structure EndPoint where
  token : String
  host : String
  scheme : String
  categoryURL : List (String × String)
  httpCli : Option RetryCli := none
  proxy : String := ""
  apis : List String := []
  httpTimeout : Int := 0
  maxHTTPIdleConnectionPerHost : Int := 0
  httpTrace : Bool := false
  deriving DecidableEq, Repr

inductive EndPointOption
  | withAPIs (arr : List String)
  | withHTTPTrace (enabled : Bool)
  | withMaxHTTPIdleConnectionPerHost (n : Int)
  | withHTTPTimeout (timeout : Int)
  | withProxy (proxy : String)
  deriving DecidableEq, Repr

/-- `opt(ep)`: a non-positive idle limit or timeout leaves the field as it is. -/
def EndPointOption.apply : EndPointOption → EndPoint → EndPoint
  | .withAPIs arr, ep => { ep with apis := arr }
  | .withHTTPTrace enabled, ep => { ep with httpTrace := enabled }
  | .withMaxHTTPIdleConnectionPerHost n, ep =>
    if n > 0 then { ep with maxHTTPIdleConnectionPerHost := n } else ep
  | .withHTTPTimeout timeout, ep => if timeout > 0 then { ep with httpTimeout := timeout } else ep
  | .withProxy proxy, ep => { ep with proxy := proxy }

def applyOptions (opts : List (Option EndPointOption)) (ep : EndPoint) : EndPoint :=
  opts.foldl (fun ep opt => match opt with
    | some opt => opt.apply ep
    | none => ep) ep

/-- The URL of one API path: `scheme://host` and the path, then `?` and the encoded query when it
is not empty. -/
def categoryURLOf (scheme host api q : String) : String :=
  if q != "" then scheme ++ "://" ++ host ++ api ++ "?" ++ q else scheme ++ "://" ++ host ++ api

def buildCategoryURL (scheme host q : String) (apis : List String)
    (m : List (String × String)) : List (String × String) :=
  apis.foldl (fun m api => (api, categoryURLOf scheme host api q) :: m) m

/-- `setupHTTP`: the proxy is used when it parses and ignored otherwise, and a failed DNS cache
(`dnsCacheOk = false`) leaves the default dialer; no path returns an error. -/
def setupHTTP (ep : EndPoint) (dnsCacheOk : Bool) : EndPoint :=
  let proxyURL := if ep.proxy != "" then
      (match parseRequestURI ep.proxy with
        | .ok u => some u
        | .error _ => none)
    else none
  { ep with
    httpCli := some
      { options :=
          { dialTimeout := ep.httpTimeout
            maxIdleConnsPerHost := ep.maxHTTPIdleConnectionPerHost
            dnsCache := dnsCacheOk
            proxyURL := proxyURL }
        timeout := ep.httpTimeout } }

/-- `newEndpoint`; `dnsCacheOk` is whether `GetDNSCacheDialContext` succeeded. -/
def newEndpoint (urlstr : String) (opts : List (Option EndPointOption)) (dnsCacheOk : Bool) :
    Except String EndPoint :=
  match parseRequestURI urlstr with
  | .error e => .error e
  | .ok u =>
    let ep := applyOptions opts
      { categoryURL := [], token := valuesGet u.query "token", host := u.host, scheme := u.scheme }
    let ep := { ep with
      categoryURL := buildCategoryURL ep.scheme ep.host (encode u.query) ep.apis ep.categoryURL }
    if ep.scheme == "http" || ep.scheme == "https" then .ok (setupHTTP ep dnsCacheOk)
    else .error ("not supported scheme " ++ quote ep.scheme.data)

@[simp] theorem EndPointOption.apply_scheme (opt : EndPointOption) (ep : EndPoint) :
    (opt.apply ep).scheme = ep.scheme := by
  cases opt <;> simp only [EndPointOption.apply] <;> split <;> rfl

@[simp] theorem EndPointOption.apply_host (opt : EndPointOption) (ep : EndPoint) :
    (opt.apply ep).host = ep.host := by
  cases opt <;> simp only [EndPointOption.apply] <;> split <;> rfl

@[simp] theorem EndPointOption.apply_categoryURL (opt : EndPointOption) (ep : EndPoint) :
    (opt.apply ep).categoryURL = ep.categoryURL := by
  cases opt <;> simp only [EndPointOption.apply] <;> split <;> rfl

@[simp] theorem EndPointOption.apply_token (opt : EndPointOption) (ep : EndPoint) :
    (opt.apply ep).token = ep.token := by
  cases opt <;> simp only [EndPointOption.apply] <;> split <;> rfl

theorem applyOptions_base (opts : List (Option EndPointOption)) (ep : EndPoint) :
    (applyOptions opts ep).scheme = ep.scheme ∧ (applyOptions opts ep).host = ep.host ∧
      (applyOptions opts ep).categoryURL = ep.categoryURL ∧
      (applyOptions opts ep).token = ep.token := by
  induction opts generalizing ep with
  | nil => exact ⟨rfl, rfl, rfl, rfl⟩
  | cons opt opts ih =>
    cases opt with
    | none => exact ih ep
    | some opt => simpa using ih (opt.apply ep)

/-- **The category map after the loop**: an API path of the list maps to its URL, any other key
keeps what the map held before. -/
theorem lookup_buildCategoryURL (scheme host q c : String) (apis : List String)
    (m : List (String × String)) :
    (buildCategoryURL scheme host q apis m).lookup c =
      if c ∈ apis then some (categoryURLOf scheme host c q) else m.lookup c := by
  induction apis generalizing m with
  | nil => simp [buildCategoryURL]
  | cons api apis ih =>
    simp only [buildCategoryURL, List.foldl_cons] at ih ⊢
    rw [ih]
    by_cases hc : c ∈ apis
    · simp [hc]
    · by_cases h : c = api
      · subst h; simp [List.lookup]
      · simp [hc, h, List.lookup, beq_false_of_ne h]

@[simp] theorem setupHTTP_categoryURL (ep : EndPoint) (dnsCacheOk : Bool) :
    (setupHTTP ep dnsCacheOk).categoryURL = ep.categoryURL := rfl

@[simp] theorem setupHTTP_scheme (ep : EndPoint) (dnsCacheOk : Bool) :
    (setupHTTP ep dnsCacheOk).scheme = ep.scheme := rfl

@[simp] theorem setupHTTP_host (ep : EndPoint) (dnsCacheOk : Bool) :
    (setupHTTP ep dnsCacheOk).host = ep.host := rfl

@[simp] theorem setupHTTP_apis (ep : EndPoint) (dnsCacheOk : Bool) :
    (setupHTTP ep dnsCacheOk).apis = ep.apis := rfl

@[simp] theorem setupHTTP_token (ep : EndPoint) (dnsCacheOk : Bool) :
    (setupHTTP ep dnsCacheOk).token = ep.token := rfl

/-- What a built endpoint is: the scheme and host of the parsed base URL, and a category map
whose keys are exactly the API paths, each with its URL. -/
theorem newEndpoint_ok {urlstr : String} {opts : List (Option EndPointOption)} {dnsCacheOk : Bool}
    {ep : EndPoint} (h : newEndpoint urlstr opts dnsCacheOk = .ok ep) :
    ∃ u, parseRequestURI urlstr = .ok u ∧ ep.scheme = u.scheme ∧ ep.host = u.host ∧
      (u.scheme = "http" ∨ u.scheme = "https") ∧
      ∀ c, ep.categoryURL.lookup c =
        if c ∈ ep.apis then some (categoryURLOf u.scheme u.host c (encode u.query)) else none := by
  cases hu : parseRequestURI urlstr with
  | error e => simp [newEndpoint, hu] at h
  | ok u =>
    obtain ⟨hs, hh, hc, -⟩ := applyOptions_base opts
      { categoryURL := [], token := valuesGet u.query "token", host := u.host, scheme := u.scheme }
    simp only [newEndpoint, hu, hs, hh, hc] at h
    split at h
    · rename_i hscheme
      cases h
      refine ⟨u, rfl, rfl, rfl, by simpa using hscheme, fun c => ?_⟩
      simp [lookup_buildCategoryURL]
    · cases h

end LeanDataway
