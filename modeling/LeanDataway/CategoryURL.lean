import LeanDataway.Write
import LeanDataway.NetUrlReparse

/-! What a category URL of `newEndpoint` carries. The URL is put together as
`scheme://host` + API path + `?` + the re-encoded query of the base URL, and `url.Parse` cuts it
back at the same places: the host of the base URL holds no delimiter and the encoded query no
`#`. `ParseQuery` then reads the encoded query back to the base URL's values, so the `token` that
the gateway reads from every category URL is the endpoint's token. -/

namespace LeanDataway

open NetUrl NetHttp

/-- `newEndpoint` takes the token from the base URL's query. -/
theorem newEndpoint_token {urlstr : String} {opts : List (Option EndPointOption)}
    {dnsCacheOk : Bool} {ep : EndPoint} (h : newEndpoint urlstr opts dnsCacheOk = .ok ep)
    {u : URL} (hu : parseRequestURI urlstr = .ok u) : ep.token = valuesGet u.query "token" := by
  obtain ⟨hs, hh, hc, ht⟩ := applyOptions_base opts
    { categoryURL := [], token := valuesGet u.query "token", host := u.host, scheme := u.scheme }
  simp only [newEndpoint, hu, hs, hh, hc] at h
  split at h
  · cases h
    simp [ht]
  · cases h

theorem categoryURLOf_append (scheme host api q tail : String) :
    categoryURLOf scheme host api q ++ tail =
      if q = "" then categoryURLOf scheme host (api ++ tail) ""
      else categoryURLOf scheme host api (q ++ tail) := by
  unfold categoryURLOf
  by_cases hq : q = ""
  · simp [hq, String.append_assoc]
  · have hqt : q ++ tail ≠ "" := fun h =>
      hq (String.ext (List.append_eq_nil.mp (congrArg String.data h)).1)
    simp [hq, hqt, String.append_assoc]

theorem mem_categoryURLOf {scheme host api q : String} {c : Char}
    (h : c ∈ (categoryURLOf scheme host api q).data) :
    c ∈ scheme.data ∨ c = ':' ∨ c = '/' ∨ c ∈ host.data ∨ c ∈ api.data ∨ c = '?' ∨
      c ∈ q.data := by
  unfold categoryURLOf at h
  split at h <;> simp at h
  · exact h
  · exact h.imp_right (.imp_right (.imp_right (.imp_right .inl)))

theorem categoryURLOf_cut {scheme host api q : String} (hhost : '?' ∉ host.data)
    (hapi : '?' ∉ api.data) :
    ∃ tail, (categoryURLOf scheme host api q).data =
        scheme.data ++ ':' :: '/' :: '/' :: (host.data ++ api.data ++ tail) ∧
      splitQuery ('/' :: '/' :: (host.data ++ api.data ++ tail)) =
        ('/' :: '/' :: (host.data ++ api.data), q.data, false) ∧ tail ⊆ '?' :: q.data := by
  by_cases hempty : q = ""
  · subst hempty
    refine ⟨[], by simp [categoryURLOf], ?_, List.nil_subset _⟩
    rw [List.append_nil]
    exact splitQuery_of_not_mem (by simp [hhost, hapi])
  · refine ⟨'?' :: q.data, by simp [categoryURLOf, hempty], ?_, List.Subset.refl _⟩
    simpa using splitQuery_append_cons (a := '/' :: '/' :: (host.data ++ api.data))
      (by simp [hhost, hapi]) fun h' => hempty (String.ext h')

/-- A category URL parses back to its API path and its query: on the scheme and the host of a
parsed http or https URL, an API path that starts with `/` and holds no `?` or `#`, and a query
without `#`, `url.Parse` gives the decoded API path and the query. -/
theorem urlParse_categoryURLOf {scheme host api q : String}
    (hs : scheme = "http" ∨ scheme = "https") (hhost : ∀ c ∈ host.data, ¬Delimiter c)
    (hslash : api.data.head? = some '/') (hapi : ∀ c ∈ api.data, c ≠ '?' ∧ c ≠ '#')
    (hq : '#' ∉ q.data) {u : URL} (h : urlParse (categoryURLOf scheme host api q) = .ok u) :
    u.rawQuery = q ∧ ∃ p, unescape .path api.data = .ok p ∧ u.path = String.mk p := by
  obtain ⟨tail, hdata, hsplit, htail⟩ := categoryURLOf_cut
    (fun hc => hhost _ hc (.inr (.inl rfl))) (fun hc => (hapi _ hc).1 rfl)
  refine urlParse_authority hs hdata hhost hslash ?_ hsplit h
  rw [List.mem_append, not_or]
  exact ⟨fun hc => (hapi _ hc).2 rfl, fun hc => by
    rcases List.mem_cons.mp (htail hc) with hc | hc
    exacts [absurd hc (by decide), hq hc]⟩

/-- `url.Parse` of a category URL, forward: on the scheme of an http or https URL, a host of host
characters that parses to itself, an API path that starts with `/`, holds no `?`, `#` or control
character and decodes, and a query without `#` or control character, the parse succeeds with the
scheme, the host, no user, the decoded API path and the query. -/
theorem urlParse_categoryURLOf_eq {scheme host api q : String}
    (hs : scheme = "http" ∨ scheme = "https") (hhost : ∀ c ∈ host.data, HostChar c)
    (hauth : parseAuthority host.data = .ok (none, host.data))
    (hslash : api.data.head? = some '/')
    (hapi : ∀ c ∈ api.data, c ≠ '?' ∧ c ≠ '#' ∧ isCTL c = false)
    (hq : ∀ c ∈ q.data, c ≠ '#' ∧ isCTL c = false) {p : List Char}
    (hp : unescape .path api.data = .ok p) :
    urlParse (categoryURLOf scheme host api q) = .ok
      { scheme := scheme, host := host, path := String.mk p,
        rawPath := if escape .path p == api.data then "" else api, rawQuery := q } := by
  obtain ⟨tail, hdata, hsplit, -⟩ := categoryURLOf_cut
    (fun hc => absurd (hhost _ hc) (by decide)) (fun hc => (hapi _ hc).1 rfl)
  have hsch : ∀ c ∈ scheme.data, c ≠ '#' ∧ isCTL c = false := by
    rcases hs with rfl | rfl <;> decide
  have hok : ∀ c ∈ (categoryURLOf scheme host api q).data, c ≠ '#' ∧ isCTL c = false := by
    intro c hc
    rcases mem_categoryURLOf hc with hc | rfl | rfl | hc | hc | rfl | hc
    · exact hsch c hc
    · decide
    · decide
    · exact ⟨fun e => by subst e; exact absurd (hhost _ hc) (by decide),
        not_isCTL_of_hostChar (hhost c hc)⟩
    · exact (hapi c hc).2
    · decide
    · exact hq c hc
  exact urlParse_authority_eq hs hdata (fun c hc => (hok c hc).2) (fun hc => (hok _ hc).1 rfl)
    (fun hc => absurd (hhost _ hc) (by decide)) hslash hsplit hauth hp

/-- `url.Parse` of a category URL whose host does not parse: on the scheme of an http or https
URL, a host with no delimiter and no `@` that `parseHost` rejects, an API path that starts with
`/` and holds no `?` or `#`, and a query without `#`, the parse fails at the authority. -/
theorem urlParse_categoryURLOf_error {scheme host api q : String}
    (hs : scheme = "http" ∨ scheme = "https") (hhost : ∀ c ∈ host.data, ¬Delimiter c)
    (hat : '@' ∉ host.data) {e : String} (he : parseHost host.data = .error e)
    (hslash : api.data.head? = some '/') (hapi : ∀ c ∈ api.data, c ≠ '?' ∧ c ≠ '#')
    (hq : '#' ∉ q.data) : ∃ e', urlParse (categoryURLOf scheme host api q) = .error e' := by
  obtain ⟨tail, hdata, hsplit, -⟩ := @categoryURLOf_cut scheme host api q
    (fun hc => hhost _ hc (.inr (.inl rfl))) (fun hc => (hapi _ hc).1 rfl)
  have hnohash : '#' ∉ (categoryURLOf scheme host api q).data := fun hc => by
    rcases mem_categoryURLOf hc with hc | hc | hc | hc | hc | hc | hc
    exacts [by rcases hs with rfl | rfl <;> revert hc <;> decide, absurd hc (by decide),
      absurd hc (by decide), hhost _ hc (.inr (.inr rfl)), (hapi _ hc).2 rfl,
      absurd hc (by decide), hq hc]
  have hscheme : scheme.data ≠ [] := by rcases hs with rfl | rfl <;> decide
  unfold urlParse
  rw [cut_of_not_mem hnohash]
  dsimp only
  by_cases hctl : (categoryURLOf scheme host api q).data.any isCTL = true
  · have hp : parse (categoryURLOf scheme host api q).data false =
        .error "net/url: invalid control character in URL" := if_pos hctl
    rw [hp]
    exact ⟨_, rfl⟩
  · have hctl' : ∀ c ∈ (categoryURLOf scheme host api q).data, isCTL c = false := by
      simpa using hctl
    rw [hdata] at hctl' ⊢
    rw [parse_web_eq hs hctl', parseAfterScheme_authority_eq hscheme hsplit
      (fun hc => hhost _ hc (.inl rfl)) hslash]
    have hauth : parseAuthority host.data = .error e := by
      rw [parseAuthority, cutLast_of_not_mem hat, he]
      rfl
    rw [hauth]
    exact ⟨_, rfl⟩

/-- **`url.Parse` accepts every category URL and gives back its parts**: on an endpoint built by
`newEndpoint` whose host holds no `%`, a category URL whose API path starts with `/`, holds no
`?`, `#` or control character and decodes, parses to the endpoint's scheme and host, no user, the
decoded API path, and the query that `Encode` wrote from the base URL. -/
theorem urlParse_categoryURL {urlstr : String} {opts : List (Option EndPointOption)}
    {dnsCacheOk : Bool} {ep : EndPoint} (hep : newEndpoint urlstr opts dnsCacheOk = .ok ep)
    (hpct : '%' ∉ ep.host.data) {api url : String} (hurl : ep.categoryURL.lookup api = some url)
    (hslash : api.data.head? = some '/')
    (hapi : ∀ c ∈ api.data, c ≠ '?' ∧ c ≠ '#' ∧ isCTL c = false) {p : List Char}
    (hp : unescape .path api.data = .ok p) :
    ∃ u, parseRequestURI urlstr = .ok u ∧ urlParse url = .ok
      { scheme := ep.scheme, host := ep.host, path := String.mk p,
        rawPath := if escape .path p == api.data then "" else api, rawQuery := encode u.query } := by
  obtain ⟨u, hu, hsch, hhost, hs, hlookup⟩ := newEndpoint_ok hep
  rw [hhost] at hpct
  refine ⟨u, hu, ?_⟩
  rw [hlookup] at hurl
  split at hurl
  · cases hurl
    obtain ⟨hauth, hchars⟩ := parse_host_reparse (parseRequestURI_eq_ok.mp hu) hpct
    rw [hsch, hhost]
    exact urlParse_categoryURLOf_eq hs hchars hauth hslash hapi
      (fun c hc => ⟨fun e => hash_not_mem_encode _ (e ▸ hc), encode_not_isCTL _ c hc⟩) hp
  · cases hurl

theorem urlParse_categoryURL_example :
    ∃ u, parseRequestURI "https://gw.example/?token=T1" = .ok u ∧
      urlParse "https://gw.example/v1/write/metric?token=T1" = .ok
        { scheme := gwEndpoint.scheme, host := gwEndpoint.host,
          path := String.mk "/v1/write/metric".data,
          rawPath := if escape .path "/v1/write/metric".data == "/v1/write/metric".data then ""
            else "/v1/write/metric",
          rawQuery := encode u.query } :=
  urlParse_categoryURL
    (by decide : newEndpoint "https://gw.example/?token=T1"
      [some (.withAPIs ["/v1/write/metric", "/v1/write/logging"])] true = .ok gwEndpoint)
    (by decide) (by decide : gwEndpoint.categoryURL.lookup "/v1/write/metric" =
      some "https://gw.example/v1/write/metric?token=T1")
    (by decide) (by decide) (by decide)

/-- A zone in the base URL breaks every category URL: when the host of an endpoint built by
`newEndpoint` holds a `%` (a zone `%25` that `url.ParseRequestURI` decoded) whose first occurrence
is not followed by two hexadecimal digits, as in a zone named `en0`, `url.Parse` rejects every
category URL whose API path starts with `/` and holds no `?` or `#`. -/
theorem urlParse_categoryURL_bad_escape {urlstr : String} {opts : List (Option EndPointOption)}
    {dnsCacheOk : Bool} {ep : EndPoint} (hep : newEndpoint urlstr opts dnsCacheOk = .ok ep)
    {a r : List Char} (hhost : ep.host.data = a ++ '%' :: r) (ha : '%' ∉ a)
    (hbad : ∀ c1 c2 rest, r = c1 :: c2 :: rest → unhex c1 = none ∨ unhex c2 = none)
    {api url : String} (hurl : ep.categoryURL.lookup api = some url)
    (hslash : api.data.head? = some '/') (hapi : ∀ c ∈ api.data, c ≠ '?' ∧ c ≠ '#') :
    ∃ e, urlParse url = .error e := by
  obtain ⟨u, hu, -, hh, hs, hlookup⟩ := newEndpoint_ok hep
  obtain ⟨e, he⟩ := parseHost_error_of_bad_escape ha hbad
  rw [← hhost, hh] at he
  rw [hlookup] at hurl
  split at hurl
  · cases hurl
    exact urlParse_categoryURLOf_error hs (parseRequestURI_host_not_delimiter hu)
      (parse_host_at (parseRequestURI_eq_ok.mp hu))
      he hslash hapi (hash_not_mem_encode _)
  · cases hurl

/-- The endpoint of a base URL on a link-local IPv6 address with the zone `en0`. -/
def zoneEndpoint : EndPoint where
  token := "T1"
  host := "[fe80::1%en0]:9528"
  scheme := "http"
  categoryURL :=
    [("/v1/write/logging", "http://[fe80::1%en0]:9528/v1/write/logging?token=T1"),
      ("/v1/write/metric", "http://[fe80::1%en0]:9528/v1/write/metric?token=T1")]
  httpCli := some ⟨⟨0, 0, true, none⟩, 0⟩
  apis := ["/v1/write/metric", "/v1/write/logging"]

theorem urlParse_categoryURL_bad_escape_example :
    ∃ e, urlParse "http://[fe80::1%en0]:9528/v1/write/metric?token=T1" = .error e :=
  urlParse_categoryURL_bad_escape
    (by decide : newEndpoint "http://[fe80::1%25en0]:9528/?token=T1"
      [some (.withAPIs ["/v1/write/metric", "/v1/write/logging"])] true = .ok zoneEndpoint)
    (a := "[fe80::1".data) (r := ['e', 'n', '0', ']', ':', '9', '5', '2', '8']) (by decide)
    (by decide) (fun _ _ _ h => by cases h; decide)
    (by decide : zoneEndpoint.categoryURL.lookup "/v1/write/metric" =
      some "http://[fe80::1%en0]:9528/v1/write/metric?token=T1")
    (by decide) (by decide)

/-- Every category URL carries the endpoint's token: for an endpoint built by `newEndpoint`
from a byte string, the `token` that `Query().Get` reads from a category URL whose API path
starts with `/` and holds no `?` or `#`, once `url.Parse` accepts it, is the endpoint's token. -/
theorem categoryURL_token {urlstr : String} {opts : List (Option EndPointOption)}
    {dnsCacheOk : Bool} {ep : EndPoint} (hep : newEndpoint urlstr opts dnsCacheOk = .ok ep)
    (hbytes : Bytes urlstr.data) {api url : String} (hurl : ep.categoryURL.lookup api = some url)
    (hslash : api.data.head? = some '/') (hapi : ∀ c ∈ api.data, c ≠ '?' ∧ c ≠ '#') {u : URL}
    (hu : urlParse url = .ok u) : valuesGet u.query "token" = ep.token := by
  obtain ⟨u0, hu0, -, -, hs, hlookup⟩ := newEndpoint_ok hep
  rw [hlookup] at hurl
  split at hurl
  · cases hurl
    obtain ⟨hraw, -⟩ := urlParse_categoryURLOf hs (parseRequestURI_host_not_delimiter hu0) hslash
      hapi (hash_not_mem_encode _) hu
    have hwf := wellFormed_parseQuery fun c hc =>
      hbytes c (parse_rawQuery_subset (parseRequestURI_eq_ok.mp hu0) hc)
    rw [newEndpoint_token hep hu0, URL.query, hraw]
    exact valuesGet_parseQuery_encode hwf "token"
  · cases hurl

def metricURL : URL where
  scheme := "https"
  host := "gw.example"
  path := "/v1/write/metric"
  rawQuery := "token=T1"

theorem categoryURL_token_example :
    valuesGet metricURL.query "token" = gwEndpoint.token :=
  categoryURL_token
    (by decide : newEndpoint "https://gw.example/?token=T1"
      [some (.withAPIs ["/v1/write/metric", "/v1/write/logging"])] true = .ok gwEndpoint)
    (by decide) (by decide : gwEndpoint.categoryURL.lookup "/v1/write/metric" =
      some "https://gw.example/v1/write/metric?token=T1")
    (by decide) (by decide) (by decide)

end LeanDataway
