import LeanDataway.NetUrl

/-! Go's `net/http` as the endpoint uses it: the header map with its canonical keys,
`http.NewRequest`, and what `sendReq` hands back, a response with the outcome of reading its body
or an error with no response. The retrying client behind `sendReq` is not modelled: its answer is
an input of every exchange. -/

namespace LeanDataway.NetHttp

open NetUrl

/-- `validHeaderFieldByte`: the token characters of RFC 7230. -/
def validHeaderFieldByte (c : Char) : Bool :=
  c.isAlphanum || "!#$%&*+-.^_|~".data.contains c || c == Char.ofNat 39 || c == Char.ofNat 96

def canonicalize (upper : Bool) : List Char → List Char
  | [] => []
  | c :: rest =>
    let c' := if upper then c.toUpper else c.toLower
    c' :: canonicalize (c' == '-') rest

/-- `textproto.CanonicalMIMEHeaderKey`: a key of token characters is canonicalized, any other
key is kept as it is. -/
def canonicalMIMEHeaderKey (s : String) : String :=
  if s.data.all validHeaderFieldByte then String.mk (canonicalize true s.data) else s

/-- `http.Header`: each canonical key with its values. -/
structure Header where
  entries : List (String × List String)
  deriving DecidableEq, Repr

/-- `Header.Set`: the canonical form of `key` now holds `value` alone. -/
def Header.set (h : Header) (key value : String) : Header :=
  ⟨(canonicalMIMEHeaderKey key, [value]) :: h.entries.filter (·.1 != canonicalMIMEHeaderKey key)⟩

def Header.values (h : Header) (key : String) : List String :=
  (h.entries.lookup key).getD []

theorem lookup_filter_ne {k k' : String} (hk : k' ≠ k) (l : List (String × List String)) :
    (l.filter (·.1 != k')).lookup k = l.lookup k := by
  induction l with
  | nil => rfl
  | cons e l ih =>
    obtain ⟨key, vs⟩ := e
    by_cases hkey : key = k'
    · subst hkey
      simp [List.filter_cons, ih, List.lookup, beq_false_of_ne (Ne.symm hk)]
    · simp [List.filter_cons, hkey, List.lookup, ih]

theorem Header.values_set_of_ne (h : Header) {key : String} (value : String) {k : String}
    (hk : canonicalMIMEHeaderKey key ≠ k) : (h.set key value).values k = h.values k := by
  simp [Header.set, Header.values, List.lookup, beq_false_of_ne (Ne.symm hk), lookup_filter_ne hk]

theorem Header.values_set_self (h : Header) (key value : String) :
    (h.set key value).values (canonicalMIMEHeaderKey key) = [value] := by
  simp [Header.set, Header.values, List.lookup]

theorem Header.values_foldl_set (l : List (String × String)) (h : Header) {k : String}
    (hl : ∀ kv ∈ l, canonicalMIMEHeaderKey kv.1 ≠ k) :
    (l.foldl (fun h kv => h.set kv.1 kv.2) h).values k = h.values k := by
  induction l generalizing h with
  | nil => rfl
  | cons kv l ih =>
    simp only [List.foldl_cons]
    rw [ih _ fun kv' hkv' => hl kv' (List.mem_cons_of_mem _ hkv'),
      Header.values_set_of_ne _ _ (hl kv (List.mem_cons_self _ _))]

/-- The fields of an `http.Request` that `NewRequest` and the endpoint set. -/
structure Request where
  method : String
  url : URL
  header : Header
  body : List UInt8
  host : String
  deriving DecidableEq, Repr

def validMethod (method : String) : Bool := !method.isEmpty && method.data.all validHeaderFieldByte

def lastIndex (c : Char) (s : List Char) : Int :=
  match cutLast c s with
  | some (before, _) => before.length
  | none => -1

/-- `removeEmptyPort`: a host ending in an empty port loses its `:`. -/
def removeEmptyPort (host : String) : String :=
  if lastIndex ':' host.data > lastIndex ']' host.data && host.data.getLast? == some ':' then
    String.mk host.data.dropLast
  else host

def requestMethod (method : String) : String := if method.isEmpty then "GET" else method

/-- `http.NewRequest`: the URL is parsed with `url.Parse`, the header starts empty. -/
def newRequest (method url : String) (body : List UInt8) : Except String Request :=
  if !validMethod (requestMethod method) then
    .error ("net/http: invalid method " ++ quote (requestMethod method).data)
  else match urlParse url with
    | .error e => .error e
    | .ok u => .ok
      { method := requestMethod method
        url := { u with host := removeEmptyPort u.host }
        header := ⟨[]⟩
        body := body
        host := removeEmptyPort u.host }

theorem Header.values_set (h : Header) (key value k : String) :
    (h.set key value).values k =
      if canonicalMIMEHeaderKey key = k then [value] else h.values k := by
  split
  · rename_i hk
    subst hk
    exact Header.values_set_self h key value
  · exact Header.values_set_of_ne h value ‹_›

def Header.Equiv (h₁ h₂ : Header) : Prop := ∀ k, h₁.values k = h₂.values k

theorem Header.Equiv.trans {h₁ h₂ h₃ : Header} (h₁₂ : h₁.Equiv h₂) (h₂₃ : h₂.Equiv h₃) :
    h₁.Equiv h₃ := fun k => (h₁₂ k).trans (h₂₃ k)

theorem Header.Equiv.set {h₁ h₂ : Header} (he : h₁.Equiv h₂) (key value : String) :
    (h₁.set key value).Equiv (h₂.set key value) := fun k => by
  rw [Header.values_set, Header.values_set, he k]

theorem Header.Equiv.foldl_set {h₁ h₂ : Header} (he : h₁.Equiv h₂) (l : List (String × String)) :
    (l.foldl (fun h kv => h.set kv.1 kv.2) h₁).Equiv (l.foldl (fun h kv => h.set kv.1 kv.2) h₂) := by
  induction l generalizing h₁ h₂ with
  | nil => exact he
  | cons kv l ih => exact ih (he.set kv.1 kv.2)

theorem Header.set_comm (h : Header) {k₁ k₂ : String}
    (hne : canonicalMIMEHeaderKey k₁ ≠ canonicalMIMEHeaderKey k₂) (v₁ v₂ : String) :
    ((h.set k₁ v₁).set k₂ v₂).Equiv ((h.set k₂ v₂).set k₁ v₁) := fun k => by
  simp only [Header.values_set]
  split_ifs with h₂ h₁ <;> first | rfl | exact absurd (h₁.trans h₂.symm) hne

/-- Setting headers with distinct canonical keys in any order gives the same values. -/
theorem Header.foldl_set_perm {l₁ l₂ : List (String × String)} (hp : l₁.Perm l₂)
    (hnd : (l₁.map fun kv => canonicalMIMEHeaderKey kv.1).Nodup) {h₁ h₂ : Header}
    (he : h₁.Equiv h₂) :
    (l₁.foldl (fun h kv => h.set kv.1 kv.2) h₁).Equiv (l₂.foldl (fun h kv => h.set kv.1 kv.2) h₂) := by
  induction hp generalizing h₁ h₂ with
  | nil => exact he
  | cons kv _ ih =>
    rw [List.map_cons, List.nodup_cons] at hnd
    exact ih hnd.2 (he.set kv.1 kv.2)
  | swap a b l =>
    simp only [List.map_cons, List.nodup_cons, List.mem_cons, not_or] at hnd
    exact (((he.set b.1 b.2).set a.1 a.2).trans (Header.set_comm h₂ hnd.1.1 b.2 a.2)).foldl_set l
  | trans p₁ _ ih₁ ih₂ =>
    exact (ih₁ hnd he).trans (ih₂ ((p₁.map _).nodup_iff.mp hnd) fun _ => rfl)

/-- **The last `Set` of a key wins**: after a loop of `Set`s, a key holds the value of the last
entry whose canonical key it is, or what it held before the loop. -/
theorem Header.values_foldl_set_last (l : List (String × String)) (h : Header) (k : String) :
    (l.foldl (fun h kv => h.set kv.1 kv.2) h).values k =
      match (l.filter fun kv => canonicalMIMEHeaderKey kv.1 == k).getLast? with
      | some kv => [kv.2]
      | none => h.values k := by
  induction l generalizing h with
  | nil => rfl
  | cons kv l ih =>
    rw [List.foldl_cons, ih, List.filter_cons]
    cases hl : (l.filter fun kv => canonicalMIMEHeaderKey kv.1 == k).getLast? with
    | some kv' => by_cases hk : canonicalMIMEHeaderKey kv.1 = k <;> simp [hk, hl, List.getLast?_cons]
    | none =>
      rw [List.getLast?_eq_none_iff.mp hl, Header.values_set]
      by_cases hk : canonicalMIMEHeaderKey kv.1 = k <;> simp [hk]

/-- A built request: the parsed URL with an empty port dropped, the body, an empty header. -/
theorem newRequest_eq_ok {method url : String} {body : List UInt8} {req : Request}
    (h : newRequest method url body = .ok req) :
    ∃ u, urlParse url = .ok u ∧ req =
      { method := requestMethod method, url := { u with host := removeEmptyPort u.host },
        header := ⟨[]⟩, body := body, host := removeEmptyPort u.host } := by
  unfold newRequest at h
  split at h
  · cases h
  · cases hu : urlParse url with
    | error e => simp [hu] at h
    | ok u =>
      simp only [hu, Except.ok.injEq] at h
      exact ⟨u, rfl, h.symm⟩

theorem newRequest_header {method url : String} {body : List UInt8} {req : Request}
    (h : newRequest method url body = .ok req) : req.header = ⟨[]⟩ := by
  obtain ⟨u, -, rfl⟩ := newRequest_eq_ok h
  rfl

/-- What `errors.Unwrap` finds inside an error of the retrying client. -/
inductive Unwrapped
  | urlError (timeout : Bool)
  | none
  | other
  deriving DecidableEq, Repr

/-- An error of `sendReq`: no response came back. -/
structure TransportError where
  unwrapped : Unwrapped
  message : String
  deriving DecidableEq, Repr

/-- A response as `writePointData` reads it: the status code and the outcome of `ReadAll` on the
body. -/
structure Response where
  statusCode : Int
  body : Except String String
  deriving DecidableEq, Repr

/-- Go's `resp.StatusCode / 100`, which truncates toward zero. -/
def statusClass (code : Int) : Int := code.tdiv 100

def statusForbidden : Int := 403

def statusRequestTimeout : Int := 408

def statusInternalServerError : Int := 500

end LeanDataway.NetHttp
