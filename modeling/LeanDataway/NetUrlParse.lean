import LeanDataway.NetUrl

/-! Where `url.Parse` cuts a URL. A hierarchical URL `scheme://authority/path?query` is cut at
its first `?`, then after `//` at the first `/`; the path is percent-decoded and the query is
kept raw. The host of a parsed URL never holds one of the delimiters `/`, `?` or `#`: a host
rejects them both written out and escaped. Nor does an encoded query hold `?` or `#`. So a
category URL built from a parsed base URL parses back at the places it was put together. -/

namespace LeanDataway.NetUrl

/-! ### Cutting at a character -/

theorem span_append_of_forall {p : Char → Bool} {a b : List Char} (ha : ∀ c ∈ a, p c)
    (hb : ∀ c ∈ b.head?, p c = false) : (a ++ b).span p = (a, b) := by
  rw [List.span_eq_take_drop, List.takeWhile_append_of_pos ha, List.dropWhile_append_of_pos ha]
  cases b with
  | nil => simp
  | cons c b => simp [hb c rfl]

theorem bne_of_not_mem {sep : Char} {s : List Char} (h : sep ∉ s) : ∀ c ∈ s, (c != sep) = true :=
  fun _ hc => bne_iff_ne.mpr fun e => h (e ▸ hc)

theorem cut_of_not_mem {sep : Char} {s : List Char} (h : sep ∉ s) : cut sep s = (s, [], false) := by
  have hspan := span_append_of_forall (bne_of_not_mem h) (b := []) (by simp)
  rw [List.append_nil] at hspan
  rw [cut, hspan]

theorem cut_append_cons {sep : Char} {a b : List Char} (h : sep ∉ a) :
    cut sep (a ++ sep :: b) = (a, b, true) := by
  rw [cut, span_append_of_forall (bne_of_not_mem h) (by simp)]

theorem splitQuery_of_not_mem {rest : List Char} (h : '?' ∉ rest) :
    splitQuery rest = (rest, [], false) := by
  have hlast : (rest.getLast? == some '?') = false := by
    rw [beq_eq_false_iff_ne]
    exact fun hl => h (List.mem_of_getLast?_eq_some hl)
  simp [splitQuery, hlast, cut_of_not_mem h]

theorem splitQuery_append_cons {a b : List Char} (h : '?' ∉ a) (hb : b ≠ []) :
    splitQuery (a ++ '?' :: b) = (a, b, false) := by
  have hforce : ((a ++ '?' :: b).getLast? == some '?' &&
      (a ++ '?' :: b).count '?' == 1) = false := by
    obtain ⟨b', c, rfl⟩ := (List.eq_nil_or_concat' b).resolve_left hb
    by_cases hc : c = '?'
    · subst hc
      have : 2 ≤ (a ++ '?' :: (b' ++ ['?'])).count '?' := by
        simp [List.count_append]
        omega
      simp only [Bool.and_eq_false_iff, beq_eq_false_iff_ne]
      exact .inr (by omega)
    · rw [← List.cons_append, ← List.append_assoc, List.getLast?_concat]
      simp [hc]
  rw [splitQuery, hforce]
  simp [cut_append_cons h]

/-! ### Decoding -/

theorem unescape_path_cons {c : Char} (h : c ≠ '%') (rest : List Char) :
    unescape .path (c :: rest) = (c :: ·) <$> unescape .path rest := by
  by_cases hplus : c = '+'
  · subst hplus
    rfl
  · rw [unescape] <;> simp_all

theorem unescape_path_append {a : List Char} (h : '%' ∉ a) (b : List Char) :
    unescape .path (a ++ b) = (a ++ ·) <$> unescape .path b := by
  induction a with
  | nil =>
    rw [List.nil_append]
    cases unescape .path b <;> rfl
  | cons c a ih =>
    rw [List.mem_cons, not_or] at h
    rw [List.cons_append, unescape_path_cons (Ne.symm h.1), ih h.2]
    cases unescape .path b <;> rfl

/-! ### The host of a parsed URL -/

def Delimiter (c : Char) : Prop := c = '/' ∨ c = '?' ∨ c = '#'

instance : DecidablePred Delimiter := fun _ => inferInstanceAs (Decidable (_ ∨ _ ∨ _))

theorem not_delimiter_of_toNat {c : Char} (h : c.toNat = 0 ∨ 128 ≤ c.toNat) : ¬Delimiter c := by
  rintro (rfl | rfl | rfl) <;> revert h <;> decide

theorem not_delimiter_of_shouldEscape {m : Encoding} (hm : m = .host ∨ m = .zone) {c : Char}
    (h : shouldEscape c m = false) : ¬Delimiter c := by
  rcases hm with rfl | rfl <;> rintro (rfl | rfl | rfl) <;> revert h <;> decide

theorem toNat_ofNat_eq_or (n : Nat) : (Char.ofNat n).toNat = n ∨ (Char.ofNat n).toNat = 0 := by
  unfold Char.ofNat
  split
  · exact .inl rfl
  · exact .inr rfl

theorem not_delimiter_decoded {m : Encoding} (hm : m = .host ∨ m = .zone) {a b : Char}
    {hi lo : Nat} (ha : unhex a = some hi) (hb : unhex b = some lo)
    (hhost : ¬(m == .host && decide (hi < 8) && !(a == '2' && b == '5')) = true)
    (hzone : ¬(m == .zone && !(a == '2' && b == '5') && hi * 16 + lo != 32 &&
      shouldEscape (Char.ofNat (hi * 16 + lo)) .host) = true) :
    ¬Delimiter (Char.ofNat (hi * 16 + lo)) := by
  by_cases h25 : a = '2' ∧ b = '5'
  · obtain ⟨rfl, rfl⟩ := h25
    cases ha
    cases hb
    decide
  · have hne : (a == '2' && b == '5') = false := by simpa using h25
    rcases hm with rfl | rfl
    · have hhi : 8 ≤ hi := by simpa [hne] using hhost
      rcases toNat_ofNat_eq_or (hi * 16 + lo) with h | h
      · exact not_delimiter_of_toNat (.inr (by omega))
      · exact not_delimiter_of_toNat (.inl h)
    · simp only [hne, Bool.not_false, beq_self_eq_true, Bool.true_and, Bool.and_eq_true,
        bne_iff_ne, ne_eq, not_and, Bool.not_eq_true] at hzone
      by_cases h32 : hi * 16 + lo = 32
      · rw [h32]
        decide
      · exact not_delimiter_of_shouldEscape (.inl rfl) (hzone h32)

theorem not_delimiter_plain {m : Encoding} (hm : m = .host ∨ m = .zone) {c : Char}
    (hok : ¬((m == .host || m == .zone) && decide (c.toNat < 128) && shouldEscape c m) = true) :
    ¬Delimiter c := by
  by_cases hlt : c.toNat < 128
  · refine not_delimiter_of_shouldEscape hm ?_
    rcases hm with rfl | rfl <;> simpa [hlt] using hok
  · exact not_delimiter_of_toNat (.inr (by omega))

theorem map_eq_ok {ε α β : Type} {f : α → β} {x : Except ε α} {b : β} (h : f <$> x = .ok b) :
    ∃ a, x = .ok a ∧ b = f a := by
  cases x with
  | error e => cases h
  | ok a => exact ⟨a, rfl, (Except.ok.inj h).symm⟩

/-- What decoding can write: a byte of an escape that the mode lets through, the character a
`+` stands for, or a character of the input that the mode lets through. A property of all three
holds of every decoded character. -/
theorem unescape_forall {m : Encoding} {P : Char → Prop}
    (hdecoded : ∀ a b hi lo, unhex a = some hi → unhex b = some lo →
      ¬(m == .host && decide (hi < 8) && !(a == '2' && b == '5')) = true →
      ¬(m == .zone && !(a == '2' && b == '5') && hi * 16 + lo != 32 &&
        shouldEscape (Char.ofNat (hi * 16 + lo)) .host) = true →
      P (Char.ofNat (hi * 16 + lo)))
    (hplus : P (if m == .queryComponent then ' ' else '+')) (s : List Char)
    (hplain : ∀ c ∈ s, ¬((m == .host || m == .zone) && decide (c.toNat < 128) &&
      shouldEscape c m) = true → P c) :
    ∀ t, unescape m s = .ok t → ∀ c ∈ t, P c := by
  induction s using unescape.induct m with
  | case1 => simp [unescape]
  | case2 a b rest hi lo hb ha hhost =>
    intro t ht
    simp only [unescape, ha, hb] at ht
    rw [if_pos hhost] at ht
    cases ht
  | case3 a b rest hi lo hb ha hhost hzone =>
    intro t ht
    simp only [unescape, ha, hb] at ht
    rw [if_neg hhost, if_pos hzone] at ht
    cases ht
  | case4 a b rest hi lo hb ha hhost hzone ih =>
    intro t ht
    simp only [unescape, ha, hb, hhost, hzone, Bool.false_eq_true, ↓reduceIte] at ht
    obtain ⟨t', hr, rfl⟩ := map_eq_ok ht
    rintro c (_ | ⟨_, hc⟩)
    · exact hdecoded a b hi lo ha hb hhost hzone
    · exact ih (fun c hc => hplain c (by simp [hc])) t' hr c hc
  | case5 a b rest hnot =>
    intro t ht
    cases hua : unhex a with
    | none => simp [unescape, hua] at ht
    | some hi =>
      cases hub : unhex b with
      | none => simp [unescape, hua, hub] at ht
      | some lo => exact (hnot hi lo hua hub).elim
  | case6 rest hshort =>
    intro t ht
    rw [unescape.eq_3 _ _ hshort] at ht
    cases ht
  | case7 rest ih =>
    intro t ht
    simp only [unescape] at ht
    obtain ⟨t', hr, rfl⟩ := map_eq_ok ht
    rintro c (_ | ⟨_, hc⟩)
    · exact hplus
    · exact ih (fun c hc => hplain c (List.mem_cons_of_mem _ hc)) t' hr c hc
  | case8 c rest hshape hpct hplus' herr =>
    intro t ht
    rw [unescape.eq_5 _ _ _ hshape hpct hplus', if_pos herr] at ht
    cases ht
  | case9 c rest hshape hpct hplus' hok ih =>
    intro t ht
    rw [unescape.eq_5 _ _ _ hshape hpct hplus', if_neg hok] at ht
    obtain ⟨t', hr, rfl⟩ := map_eq_ok ht
    rintro d (_ | ⟨_, hd⟩)
    · exact hplain c (List.mem_cons_self _ _) hok
    · exact ih (fun c hc => hplain c (List.mem_cons_of_mem _ hc)) t' hr d hd

/-- A decoded host holds no delimiter, whatever the text it was decoded from. -/
theorem unescape_not_delimiter {m : Encoding} (hm : m = .host ∨ m = .zone) (s : List Char) :
    ∀ t, unescape m s = .ok t → ∀ c ∈ t, ¬Delimiter c :=
  unescape_forall (fun _ _ _ _ ha hb hhost hzone => not_delimiter_decoded hm ha hb hhost hzone)
    (by rcases hm with rfl | rfl <;> decide) s (fun _ _ hok => not_delimiter_plain hm hok)

theorem bind_eq_ok {ε α β : Type} {x : Except ε α} {f : α → Except ε β} {b : β}
    (h : x >>= f = .ok b) : ∃ a, x = .ok a ∧ f a = .ok b := by
  cases x with
  | error e => cases h
  | ok a => exact ⟨a, rfl, h⟩

theorem parseHost_not_delimiter {host t : List Char} (h : parseHost host = .ok t) :
    ∀ c ∈ t, ¬Delimiter c := by
  have hhost := unescape_not_delimiter (.inl rfl)
  unfold parseHost at h
  split at h
  · split at h
    · cases h
    split at h
    · cases h
    split at h
    · obtain ⟨t1, h1, h⟩ := bind_eq_ok h
      obtain ⟨t2, h2, h⟩ := bind_eq_ok h
      obtain ⟨t3, h3, h⟩ := bind_eq_ok h
      cases h
      simp only [List.mem_append]
      rintro c ((hc | hc) | hc)
      exacts [hhost _ _ h1 c hc, unescape_not_delimiter (.inr rfl) _ _ h2 c hc,
        hhost _ _ h3 c hc]
    · exact hhost _ _ h
  · split at h
    · split at h
      · cases h
      · exact hhost _ _ h
    · exact hhost _ _ h

theorem parseAuthority_host {authority : List Char} {r : Option Userinfo × List Char}
    (h : parseAuthority authority = .ok r) : ∃ hostPart, parseHost hostPart = .ok r.2 := by
  unfold parseAuthority at h
  split at h
  · cases hp : parseHost authority with
    | error e => simp [hp] at h
    | ok t =>
      simp only [hp, Except.map_ok, Except.ok.injEq] at h
      exact ⟨authority, h ▸ hp⟩
  · obtain ⟨t, ht, h⟩ := bind_eq_ok h
    refine ⟨_, ht.trans ?_⟩
    dsimp only at h
    split at h
    · cases h
    obtain ⟨_, -, h⟩ := bind_eq_ok h
    split at h
    · obtain ⟨_, -, h⟩ := bind_eq_ok h
      cases h
      rfl
    · obtain ⟨_, -, h⟩ := bind_eq_ok h
      obtain ⟨_, -, h⟩ := bind_eq_ok h
      cases h
      rfl

theorem setPath_eq_ok {u u' : URL} {p : List Char} (h : setPath u p = .ok u') :
    ∃ path, unescape .path p = .ok path ∧
      u' = { u with
        path := String.mk path
        rawPath := if escape .path path == p then "" else String.mk p } := by
  unfold setPath at h
  cases hp : unescape .path p with
  | error e => simp [hp] at h
  | ok path =>
    simp only [hp, Except.map_ok, Except.ok.injEq] at h
    exact ⟨path, rfl, h.symm⟩

theorem parse_cases {rawURL : List Char} {viaRequest : Bool} {u : URL}
    (h : parse rawURL viaRequest = .ok u) :
    (rawURL = ['*'] ∧ u = { path := "*" }) ∨
      ∃ scheme rest, getScheme rawURL = .ok (scheme, rest) ∧
        parseAfterScheme (scheme.map Char.toLower) rest viaRequest = .ok u := by
  unfold parse at h
  split at h
  · cases h
  split at h
  · cases h
  split at h
  · rename_i hstar
    cases h
    exact .inl ⟨by simpa using hstar, rfl⟩
  split at h
  · cases h
  · rename_i scheme rest hscheme
    exact .inr ⟨scheme, rest, hscheme, h⟩

theorem parseAfterScheme_cases {scheme rest0 : List Char} {viaRequest : Bool} {u : URL}
    (h : parseAfterScheme scheme rest0 viaRequest = .ok u) :
    u.scheme = String.mk scheme ∧ u.rawQuery = String.mk (splitQuery rest0).2.1 ∧
      (u.host = "" ∨ ∃ authority r, parseAuthority authority = .ok r ∧ u.host = String.mk r.2) := by
  have hset : ∀ {u0 : URL} {p : List Char}, setPath u0 p = .ok u →
      u.scheme = u0.scheme ∧ u.rawQuery = u0.rawQuery ∧ u.host = u0.host := fun hs => by
    obtain ⟨_, -, rfl⟩ := setPath_eq_ok hs
    exact ⟨rfl, rfl, rfl⟩
  unfold parseAfterScheme at h
  split at h
  rename_i hsplit
  rw [hsplit]
  split at h
  · cases h
    exact ⟨rfl, rfl, .inl rfl⟩
  split at h
  · cases h
  split at h
  · cases h
  split at h
  · split at h
    split at h
    · cases h
    · rename_i hauth
      exact ⟨(hset h).1, (hset h).2.1, .inr ⟨_, _, hauth, (hset h).2.2⟩⟩
  · exact ⟨(hset h).1, (hset h).2.1, .inl (hset h).2.2⟩

/-- **The host of a parsed URL holds no delimiter.** -/
theorem parse_host_not_delimiter {rawURL : List Char} {viaRequest : Bool} {u : URL}
    (h : parse rawURL viaRequest = .ok u) : ∀ c ∈ u.host.data, ¬Delimiter c := by
  rcases parse_cases h with ⟨-, rfl⟩ | ⟨scheme, rest, -, h⟩
  · simp
  rcases (parseAfterScheme_cases h).2.2 with hhost | ⟨authority, r, hauth, hhost⟩
  · simp [hhost]
  · rw [hhost]
    obtain ⟨hostPart, hp⟩ := parseAuthority_host hauth
    exact parseHost_not_delimiter hp

theorem parseRequestURI_eq_ok {s : String} {u : URL} :
    parseRequestURI s = .ok u ↔ parse s.data true = .ok u := by
  unfold parseRequestURI
  cases parse s.data true <;> simp [Except.mapError]

theorem parseRequestURI_host_not_delimiter {s : String} {u : URL}
    (h : parseRequestURI s = .ok u) : ∀ c ∈ u.host.data, ¬Delimiter c :=
  parse_host_not_delimiter (parseRequestURI_eq_ok.mp h)

/-! ### The raw query of a parsed URL -/

theorem getScheme_go_subset (raw : List Char) :
    ∀ (scheme l : List Char), l ⊆ raw → ∀ {s r : List Char},
      getScheme.go raw scheme l = .ok (s, r) → r ⊆ raw
  | _, [], _, _, _, h => by
    cases h
    exact List.Subset.refl _
  | scheme, c :: l, hl, s, r, h => by
    have hl' : l ⊆ raw := fun a ha => hl (List.mem_cons_of_mem _ ha)
    unfold getScheme.go at h
    split_ifs at h
    · exact getScheme_go_subset raw _ l hl' h
    · cases h
      exact List.Subset.refl _
    · exact getScheme_go_subset raw _ l hl' h
    · cases h
      exact hl'
    · cases h
      exact List.Subset.refl _

theorem cut_subset {sep : Char} {s before after : List Char} {found : Bool}
    (h : cut sep s = (before, after, found)) : before ⊆ s ∧ after ⊆ s := by
  rw [cut, List.span_eq_take_drop] at h
  have htake : s.takeWhile (· != sep) ⊆ s := (List.takeWhile_sublist _).subset
  have hdrop : s.dropWhile (· != sep) ⊆ s := (List.dropWhile_sublist _).subset
  cases hd : s.dropWhile (· != sep) with
  | nil =>
    rw [hd] at h
    cases h
    exact ⟨htake, by simp⟩
  | cons d rest =>
    rw [hd] at h
    cases h
    exact ⟨htake, fun a ha => hdrop (hd ▸ List.mem_cons_of_mem _ ha)⟩

theorem splitQuery_subset (rest : List Char) : (splitQuery rest).2.1 ⊆ rest := by
  unfold splitQuery
  split
  · exact List.nil_subset _
  · rcases hcut : cut '?' rest with ⟨b, q, f⟩
    exact (cut_subset hcut).2

/-- The raw query of a parsed URL is text of the input. -/
theorem parse_rawQuery_subset {rawURL : List Char} {viaRequest : Bool} {u : URL}
    (h : parse rawURL viaRequest = .ok u) : u.rawQuery.data ⊆ rawURL := by
  rcases parse_cases h with ⟨-, rfl⟩ | ⟨scheme, rest, hscheme, h⟩
  · exact List.nil_subset _
  · rw [(parseAfterScheme_cases h).2.1]
    exact fun a ha => getScheme_go_subset rawURL [] rawURL (List.Subset.refl _) hscheme
      (splitQuery_subset rest ha)

/-! ### The encoded query -/

theorem shouldEscape_hash (mode : Encoding) : shouldEscape '#' mode = true := by
  cases mode <;> rfl

theorem upperhex_mem (n : Nat) : upperhex n ∈ "0123456789ABCDEF".data := by
  rw [upperhex, List.getD_eq_getElem?_getD]
  cases h : "0123456789ABCDEF".data[n]? with
  | none => decide
  | some c => exact List.getElem?_mem h

theorem not_mem_escape {mode : Encoding} {c : Char} (hesc : shouldEscape c mode = true)
    (hc : c ∉ "+%0123456789ABCDEF".data) (s : List Char) : c ∉ escape mode s := by
  have hhex : ∀ n, upperhex n ≠ c := fun n h =>
    hc (h ▸ List.mem_cons_of_mem _ (List.mem_cons_of_mem _ (upperhex_mem n)))
  simp only [escape, List.mem_flatMap, not_exists, not_and]
  intro d _
  unfold escapeChar
  split
  · rintro (_ | ⟨_, ⟨⟩⟩)
    exact hc (List.mem_cons_self _ _)
  split
  · rintro (_ | ⟨_, _ | ⟨_, _ | ⟨_, ⟨⟩⟩⟩⟩)
    · exact hc (List.mem_cons_of_mem _ (List.mem_cons_self _ _))
    · exact hhex _ rfl
    · exact hhex _ rfl
  · rename_i hd
    rintro (_ | ⟨_, ⟨⟩⟩)
    exact hd hesc

theorem hash_not_mem_escape (mode : Encoding) (s : List Char) : '#' ∉ escape mode s :=
  not_mem_escape (shouldEscape_hash mode) (by decide) s

theorem mem_of_mem_intersperse {α : Type} {sep x : α} :
    ∀ {l : List α}, x ∈ l.intersperse sep → x = sep ∨ x ∈ l
  | [], h => by simp at h
  | [_], h => .inr h
  | a :: b :: l, h => by
    rw [List.intersperse_cons₂, List.mem_cons, List.mem_cons] at h
    rcases h with rfl | rfl | h
    · exact .inr (List.mem_cons_self _ _)
    · exact .inl rfl
    · exact (mem_of_mem_intersperse h).imp_right (List.mem_cons_of_mem _)

theorem mem_encode {c : Char} {v : List (String × List String)} (h : c ∈ (encode v).data) :
    c = '&' ∨ c = '=' ∨ ∃ s, c ∈ escape .queryComponent s := by
  obtain ⟨l, hl, hc⟩ := List.mem_flatten.mp h
  rcases mem_of_mem_intersperse hl with rfl | hl
  · exact .inl (by simpa using hc)
  · simp only [List.mem_flatMap, List.mem_map] at hl
    obtain ⟨_, -, x, -, rfl⟩ := hl
    simp only [List.mem_append, List.mem_cons] at hc
    rcases hc with hc | hc | hc
    exacts [.inr (.inr ⟨_, hc⟩), .inr (.inl hc), .inr (.inr ⟨_, hc⟩)]

/-- An encoded query holds no `#`. -/
theorem hash_not_mem_encode (v : List (String × List String)) : '#' ∉ (encode v).data := by
  intro h
  rcases mem_encode h with h | h | ⟨s, h⟩
  exacts [absurd h (by decide), absurd h (by decide), hash_not_mem_escape _ s h]

/-! ### A hierarchical web URL -/

theorem getScheme_web {scheme : String} (hs : scheme = "http" ∨ scheme = "https")
    (rest : List Char) : getScheme (scheme.data ++ ':' :: rest) = .ok (scheme.data, rest) := by
  rcases hs with rfl | rfl <;> rfl

theorem parse_web {scheme : String} (hs : scheme = "http" ∨ scheme = "https") {rest : List Char}
    {viaRequest : Bool} {u : URL} (h : parse (scheme.data ++ ':' :: rest) viaRequest = .ok u) :
    parseAfterScheme scheme.data rest viaRequest = .ok u := by
  rcases parse_cases h with ⟨hstar, -⟩ | ⟨_, _, hsch, h⟩
  · rcases hs with rfl | rfl <;> simp at hstar
  · rw [getScheme_web hs] at hsch
    cases hsch
    rcases hs with rfl | rfl <;> exact h

theorem parseAfterScheme_authority_eq {scheme rest0 auth path query : List Char}
    {viaRequest : Bool} (hscheme : scheme ≠ [])
    (hsplit : splitQuery rest0 = ('/' :: '/' :: (auth ++ path), query, false))
    (hauth : '/' ∉ auth) (hpath : path.head? = some '/') :
    parseAfterScheme scheme rest0 viaRequest =
      parseAuthority auth >>= fun r =>
        setPath
          { scheme := String.mk scheme, rawQuery := String.mk query, user := r.1,
            host := String.mk r.2 } path := by
  have hspan : (auth ++ path).span (· != '/') = (auth, path) :=
    span_append_of_forall (bne_of_not_mem hauth) (by simp [hpath])
  have hempty : scheme.isEmpty = false := by cases scheme <;> simp_all
  unfold parseAfterScheme
  simp only [hsplit, List.head?_cons, bne_self_eq_false, Bool.false_and, Bool.false_eq_true,
    ↓reduceIte, hempty, Bool.not_false, Bool.true_or, List.isPrefixOf_cons₂_self,
    List.isPrefixOf_nil_left, Bool.and_self, List.drop_succ_cons, List.drop_zero, hspan]
  cases parseAuthority auth <;> rfl

theorem parseAfterScheme_authority {scheme rest0 auth path query : List Char} {viaRequest : Bool}
    (hscheme : scheme ≠ []) (hsplit : splitQuery rest0 = ('/' :: '/' :: (auth ++ path), query, false))
    (hauth : '/' ∉ auth) (hpath : path.head? = some '/') {u : URL}
    (h : parseAfterScheme scheme rest0 viaRequest = .ok u) :
    u.rawQuery = String.mk query ∧ ∃ p, unescape .path path = .ok p ∧ u.path = String.mk p := by
  rw [parseAfterScheme_authority_eq hscheme hsplit hauth hpath] at h
  obtain ⟨_, -, h⟩ := bind_eq_ok h
  obtain ⟨p, hp, rfl⟩ := setPath_eq_ok h
  exact ⟨rfl, p, hp, rfl⟩

/-- Where `url.Parse` cuts an http or https URL: on `scheme://authority/path` followed by a
raw query part and no `#`, with no delimiter in the authority and no `?` in the path, the query is
what `splitQuery` leaves after the path, and the path is the decoded path. -/
theorem urlParse_authority {s scheme : String} (hs : scheme = "http" ∨ scheme = "https")
    {auth path tail query : List Char}
    (hdata : s.data = scheme.data ++ ':' :: '/' :: '/' :: (auth ++ path ++ tail))
    (hauth : ∀ c ∈ auth, ¬Delimiter c) (hpath : path.head? = some '/') (hfrag : '#' ∉ path ++ tail)
    (hsplit : splitQuery ('/' :: '/' :: (auth ++ path ++ tail)) =
      ('/' :: '/' :: (auth ++ path), query, false))
    {u : URL} (h : urlParse s = .ok u) :
    u.rawQuery = String.mk query ∧ ∃ p, unescape .path path = .ok p ∧ u.path = String.mk p := by
  have hnohash : '#' ∉ s.data := by
    have hsch : '#' ∉ scheme.data := by rcases hs with rfl | rfl <;> decide
    have hauth' : '#' ∉ auth := fun hc => hauth _ hc (.inr (.inr rfl))
    simp only [hdata, List.mem_append, List.mem_cons, List.append_assoc] at hfrag ⊢
    rintro (h | h | h | h | h | h | h) <;> simp_all
  have hparse : parse s.data false = .ok u := by
    unfold urlParse at h
    rw [cut_of_not_mem hnohash] at h
    cases hp : parse s.data false with
    | error e => simp [hp] at h
    | ok u' => simpa [hp] using h
  rw [hdata] at hparse
  have hscheme : scheme.data ≠ [] := by rcases hs with rfl | rfl <;> decide
  exact parseAfterScheme_authority hscheme hsplit (fun hc => hauth _ hc (.inl rfl)) hpath
    (parse_web hs hparse)

end LeanDataway.NetUrl
