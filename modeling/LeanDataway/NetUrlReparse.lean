import LeanDataway.NetUrlQuery

/-! Parsing a parsed host again. `newEndpoint` prints the host of the parsed base URL, as
`url.Parse` decoded it, into every category URL, and `http.NewRequest` parses that URL again. A
host decodes only escapes of bytes above 127 and `%25`, so an escape never writes one of the
characters that `parseHost` cuts at (`[`, `]`, `:`, `@`, `/`). A decoded host without `%` is
therefore accepted once more, cut at the same places, and decoded to itself. With the forward
computation of `url.Parse` on a web URL, this gives the whole parse of a category URL. -/

namespace LeanDataway.NetUrl

/-! ### Characters -/

/-- A character that a host holds written out: a byte above 127, or one that `shouldEscape` lets
through in a host. -/
def HostChar (c : Char) : Prop := 128 ≤ c.toNat ∨ shouldEscape c .host = false

instance : DecidablePred HostChar := fun _ => inferInstanceAs (Decidable (_ ∨ _))

theorem isAlphanum_of_isCTL {c : Char} (h : isCTL c = true) : c.isAlphanum = false := by
  simp only [isCTL, Bool.or_eq_true, decide_eq_true_eq, beq_iff_eq] at h
  have hc : c.val.toBitVec.toNat = c.toNat := rfl
  simp [Char.isAlphanum, Char.isAlpha, Char.isUpper, Char.isLower, Char.isDigit, UInt32.le_def,
    BitVec.le_def, hc]
  omega

theorem contains_of_isCTL {c : Char} (h : isCTL c = true) {l : List Char}
    (hl : ∀ d ∈ l, isCTL d = false) : l.contains c = false := by
  rw [Bool.eq_false_iff]
  intro hc
  rw [hl c (List.elem_iff.mp hc)] at h
  cases h

theorem shouldEscape_of_isCTL {c : Char} (h : isCTL c = true) (mode : Encoding) :
    shouldEscape c mode = true := by
  unfold shouldEscape
  rw [isAlphanum_of_isCTL h, contains_of_isCTL h (by decide : ∀ d ∈ hostChars, isCTL d = false),
    contains_of_isCTL h (by decide : ∀ d ∈ ['-', '_', '.', '~'], isCTL d = false),
    contains_of_isCTL h (by decide : ∀ d ∈ reservedChars, isCTL d = false),
    contains_of_isCTL h (by decide : ∀ d ∈ ['!', '(', ')', '*'], isCTL d = false)]
  cases mode <;> rfl

theorem not_isCTL_of_hostChar {c : Char} (h : HostChar c) : isCTL c = false := by
  rcases h with h | h
  · simp only [isCTL, Bool.or_eq_false_iff, decide_eq_false_iff_not, beq_eq_false_iff_ne]
    omega
  · rw [Bool.eq_false_iff]
    intro hc
    rw [shouldEscape_of_isCTL hc] at h
    cases h

/-! ### What decoding a host writes -/

theorem toNat_ofNat_of_lt {n : Nat} (h : n < 256) : (Char.ofNat n).toNat = n := by
  unfold Char.ofNat
  split
  · rfl
  · rename_i hv
    exact absurd (Or.inl (by omega)) hv

theorem decoded_host {a b : Char} {hi lo : Nat} (ha : unhex a = some hi) (hb : unhex b = some lo)
    (hhost : ¬(Encoding.host == .host && decide (hi < 8) && !(a == '2' && b == '5')) = true) :
    Char.ofNat (hi * 16 + lo) = '%' ∨ 128 ≤ (Char.ofNat (hi * 16 + lo)).toNat := by
  have hlo := unhex_lt hb
  have hhi := unhex_lt ha
  by_cases h25 : a = '2' ∧ b = '5'
  · obtain ⟨rfl, rfl⟩ := h25
    cases ha
    cases hb
    exact .inl rfl
  · have h8 : 8 ≤ hi := by
      have hne : (a == '2' && b == '5') = false := by simpa using h25
      simpa [hne] using hhost
    exact .inr (by rw [toNat_ofNat_of_lt (by omega)]; omega)

/-- A decoded host holds only host characters, and `%` where it decoded `%25`. -/
theorem unescape_host_hostChar {s : List Char} :
    ∀ t, unescape .host s = .ok t → ∀ c ∈ t, c = '%' ∨ HostChar c :=
  unescape_forall
    (fun _ _ _ _ ha hb hhost _ => (decoded_host ha hb hhost).imp_right .inl)
    (.inr (.inr (by decide))) s
    (fun c _ hok => .inr (by
      by_cases hlt : c.toNat < 128
      · exact .inr (by simpa [hlt] using hok)
      · exact .inl (by omega)))

theorem unescape_host_mem {s : List Char} :
    ∀ t, unescape .host s = .ok t → ∀ c ∈ t, c ∈ s ∨ c = '%' ∨ c = '+' ∨ 128 ≤ c.toNat :=
  unescape_forall
    (fun _ _ _ _ ha hb hhost _ => by
      rcases decoded_host ha hb hhost with h | h
      exacts [.inr (.inl h), .inr (.inr (.inr h))])
    (.inr (.inr (.inl rfl))) s (fun _ hc _ => .inl hc)

theorem unescape_host_head {d : Char} {s t : List Char} (h : unescape .host (d :: s) = .ok t)
    (hd : d ≠ '[') : t.head? ≠ some '[' := by
  by_cases hpct : d = '%'
  · subst hpct
    match s, h with
    | a :: b :: s, h =>
      rw [unescape.eq_2] at h
      cases ha : unhex a with
      | none => simp [ha] at h
      | some hi =>
        cases hb : unhex b with
        | none => simp [ha, hb] at h
        | some lo =>
          simp only [ha, hb] at h
          split_ifs at h with h1 h2
          obtain ⟨t', -, rfl⟩ := map_eq_ok h
          intro hc
          have hbr : Char.ofNat (hi * 16 + lo) = '[' := Option.some.inj hc
          rcases decoded_host ha hb h1 with h' | h'
          · exact absurd (h'.symm.trans hbr) (by decide)
          · rw [hbr] at h'
            exact absurd h' (by decide)
    | [], h => simp [unescape] at h
    | [_], h => simp [unescape] at h
  · by_cases hplus : d = '+'
    · subst hplus
      obtain ⟨t', -, rfl⟩ := map_eq_ok (show _ = Except.ok t from h)
      simp
    · rw [unescape.eq_5 _ _ _ (fun _ _ _ h _ => hpct h) hpct hplus] at h
      split_ifs at h
      obtain ⟨t', -, rfl⟩ := map_eq_ok h
      simpa using hd

theorem unescape_host_id : ∀ {s : List Char}, (∀ c ∈ s, c ≠ '%' ∧ HostChar c) →
    unescape .host s = .ok s
  | [], _ => rfl
  | c :: s, h => by
    have hc := h c (List.mem_cons_self _ _)
    have ih := unescape_host_id fun d hd => h d (List.mem_cons_of_mem _ hd)
    by_cases hplus : c = '+'
    · subst hplus
      rw [unescape.eq_4, ih]
      rfl
    · rw [unescape.eq_5 _ _ _ (fun _ _ _ h _ => hc.1 h) hc.1 hplus, ih, if_neg]
      · rfl
      · rcases hc.2 with h' | h' <;> simp [h']

/-! ### Cutting a decoded host -/

theorem unescape_append_cons {m : Encoding} {c : Char} (hc : unhex c = none) {r : List Char} :
    ∀ (l : List Char) {t : List Char}, unescape m (l ++ c :: r) = .ok t →
      ∃ t1 t2, unescape m l = .ok t1 ∧ unescape m (c :: r) = .ok t2 ∧ t = t1 ++ t2
  | [], t, h => ⟨[], t, rfl, h, rfl⟩
  | d :: l, t, h => by
    by_cases hpct : d = '%'
    · subst hpct
      match l, h with
      | [], h =>
        cases r with
        | nil => simp [unescape] at h
        | cons e r => simp [unescape.eq_2, hc] at h
      | [a], h => simp [unescape.eq_2, hc] at h
      | a :: b :: l, h =>
        rw [List.cons_append, List.cons_append, List.cons_append, unescape.eq_2] at h
        rw [unescape.eq_2]
        split at h
        · split_ifs at h with h1 h2
          obtain ⟨t', hl, rfl⟩ := map_eq_ok h
          obtain ⟨t1, t2, h1', h2', rfl⟩ := unescape_append_cons hc l hl
          exact ⟨_, t2, by rw [if_neg h1, if_neg h2, h1']; rfl, h2', rfl⟩
        · cases h
    · by_cases hplus : d = '+'
      · subst hplus
        rw [List.cons_append, unescape.eq_4] at h
        obtain ⟨t', hl, rfl⟩ := map_eq_ok h
        obtain ⟨t1, t2, h1, h2, rfl⟩ := unescape_append_cons hc l hl
        exact ⟨_, t2, by rw [unescape.eq_4, h1]; rfl, h2, rfl⟩
      · rw [List.cons_append, unescape.eq_5 _ _ _ (fun _ _ _ h _ => hpct h) hpct hplus] at h
        split_ifs at h with hok
        obtain ⟨t', hl, rfl⟩ := map_eq_ok h
        obtain ⟨t1, t2, h1, h2, rfl⟩ := unescape_append_cons hc l hl
        exact ⟨_, t2, by
          rw [unescape.eq_5 _ _ _ (fun _ _ _ h _ => hpct h) hpct hplus, if_neg hok, h1]; rfl,
          h2, rfl⟩

theorem cut_eq_true {sep : Char} {s before after : List Char}
    (h : cut sep s = (before, after, true)) : s = before ++ sep :: after ∧ sep ∉ before := by
  rw [cut, List.span_eq_take_drop] at h
  have hsplit := (List.takeWhile_append_dropWhile (· != sep) s).symm
  have hnot : sep ∉ s.takeWhile (· != sep) := fun hm => by
    simpa using List.mem_takeWhile_imp hm
  cases hd : s.dropWhile (· != sep) with
  | nil => rw [hd] at h; cases h
  | cons d rest =>
    rw [hd] at h hsplit
    cases h
    have hdsep : d = sep := by
      have := List.head?_dropWhile_not (· != sep) s
      rw [hd] at this
      simpa using this
    subst hdsep
    exact ⟨hsplit, hnot⟩

theorem cut_eq_false {sep : Char} {s before after : List Char}
    (h : cut sep s = (before, after, false)) : sep ∉ s := by
  rw [cut, List.span_eq_take_drop] at h
  cases hd : s.dropWhile (· != sep) with
  | nil =>
    intro hm
    have := List.dropWhile_eq_nil_iff.mp hd sep hm
    simp at this
  | cons d rest => rw [hd] at h; cases h

theorem cutLast_eq_some {sep : Char} {s before after : List Char}
    (h : cutLast sep s = some (before, after)) : s = before ++ sep :: after ∧ sep ∉ after := by
  unfold cutLast at h
  rcases hc : cut sep s.reverse with ⟨a, b, _ | _⟩ <;> rw [hc] at h
  · cases h
  · cases h
    obtain ⟨hs, ha⟩ := cut_eq_true hc
    refine ⟨?_, by simpa using ha⟩
    rw [← List.reverse_reverse s, hs]
    simp

theorem cutLast_eq_none {sep : Char} {s : List Char} (h : cutLast sep s = none) : sep ∉ s := by
  unfold cutLast at h
  rcases hc : cut sep s.reverse with ⟨a, b, _ | _⟩ <;> rw [hc] at h
  · simpa using cut_eq_false hc
  · cases h

theorem cutLast_append_cons {sep : Char} {a b : List Char} (hb : sep ∉ b) :
    cutLast sep (a ++ sep :: b) = some (a, b) := by
  have hrev : (a ++ sep :: b).reverse = b.reverse ++ sep :: a.reverse := by simp
  rw [cutLast, hrev, cut_append_cons (by simpa using hb)]
  simp

theorem cutLast_of_not_mem {sep : Char} {s : List Char} (h : sep ∉ s) : cutLast sep s = none := by
  rw [cutLast, cut_of_not_mem (by simpa using h)]

theorem splitAtZone_of_not_mem : ∀ {l : List Char}, '%' ∉ l → splitAtZone l = none
  | [], _ => rfl
  | c :: l, h => by
    rw [List.mem_cons, not_or] at h
    rw [splitAtZone.eq_3 _ _ (fun _ hc _ => h.1 hc.symm), splitAtZone_of_not_mem h.2]
    rfl

theorem splitAtZone_eq_some : ∀ {l before zone : List Char},
    splitAtZone l = some (before, zone) →
      ∃ rest, zone = '%' :: '2' :: '5' :: rest ∧ l = before ++ zone
  | [], _, _, h => by cases h
  | '%' :: '2' :: '5' :: rest, _, _, h => by
    rw [splitAtZone.eq_2] at h
    cases h
    exact ⟨rest, rfl, rfl⟩
  | c :: l, before, zone, h => by
    by_cases hz : ∃ rest, c :: l = '%' :: '2' :: '5' :: rest
    · obtain ⟨rest, hrest⟩ := hz
      rw [hrest, splitAtZone.eq_2] at h
      cases h
      exact ⟨rest, rfl, hrest⟩
    · rw [splitAtZone.eq_3 _ _ (fun rest hc hl => hz ⟨rest, by rw [hc, hl]⟩)] at h
      obtain ⟨⟨before', zone'⟩, hl, he⟩ := Option.map_eq_some'.mp h
      cases he
      obtain ⟨rest, hzone, rfl⟩ := splitAtZone_eq_some hl
      exact ⟨rest, hzone, rfl⟩

/-! ### Parsing a decoded host again -/

theorem port_char {c : Char} (h : c = ':' ∨ c = ']' ∨ c.isDigit = true) : c ≠ '%' ∧ HostChar c := by
  rcases h with rfl | rfl | h
  · decide
  · decide
  · refine ⟨(fun e => by rw [e] at h; cases h), .inr ?_⟩
    simp [shouldEscape, Char.isAlphanum, h]

theorem validOptionalPort_chars {cp : List Char} (h : validOptionalPort cp = true) :
    ∀ c ∈ cp, c = ':' ∨ c.isDigit = true := by
  unfold validOptionalPort at h
  split at h
  · simp
  · rintro c (_ | ⟨_, hc⟩)
    · exact .inl rfl
    · exact .inr (List.all_eq_true.mp h c hc)
  · cases h

theorem unescape_host_port {l port t : List Char} {sep : Char} (hsep : sep = ':' ∨ sep = ']')
    (hport : ∀ c ∈ port, c = ':' ∨ c.isDigit = true) (hu : unescape .host (l ++ sep :: port) = .ok t) :
    ∃ t1, unescape .host l = .ok t1 ∧ t = t1 ++ sep :: port := by
  obtain ⟨t1, t2, h1, h2, rfl⟩ :=
    unescape_append_cons (by rcases hsep with rfl | rfl <;> rfl) l hu
  rw [unescape_host_id fun c hc => port_char <| (List.mem_cons.mp hc).elim
    (fun e => e ▸ hsep.imp_right .inl) fun hc => (hport c hc).imp_right .inr] at h2
  cases h2
  exact ⟨t1, h1, rfl⟩

theorem parseHost_of_not_bracket {h : List Char} (hh : h.head? ≠ some '[')
    (hport : ∀ a port, cutLast ':' h = some (a, port) → validOptionalPort (':' :: port) = true) :
    parseHost h = unescape .host h := by
  unfold parseHost
  split
  · exact absurd rfl hh
  · split
    · rename_i a port hcut
      rw [if_neg (by simpa using hport a port hcut)]
    · rfl

theorem unescape_zone_pct {r t : List Char} (h : unescape .zone ('%' :: '2' :: '5' :: r) = .ok t) :
    '%' ∈ t := by
  rw [unescape.eq_2] at h
  obtain ⟨t, -, rfl⟩ := map_eq_ok (by simpa [unhex] using h)
  exact List.mem_cons_self _ _

/-- A host that parsed to a text without `%` had no zone: `parseHost` decoded it whole. -/
theorem parseHost_eq_unescape {h0 h : List Char} (hp : parseHost h0 = .ok h) (hpct : '%' ∉ h) :
    unescape .host h0 = .ok h := by
  unfold parseHost at hp
  split at hp
  · split at hp
    · cases hp
    split at hp
    · cases hp
    split at hp
    · rename_i hzone
      obtain ⟨h1, -, hp⟩ := bind_eq_ok hp
      obtain ⟨h2, h2eq, hp⟩ := bind_eq_ok hp
      obtain ⟨h3, -, hp⟩ := bind_eq_ok hp
      cases hp
      obtain ⟨r, rfl, -⟩ := splitAtZone_eq_some hzone
      exact absurd (List.mem_append_left _ (List.mem_append_right _ (unescape_zone_pct h2eq)))
        hpct
    · exact hp
  · split at hp
    · split at hp
      · cases hp
      · exact hp
    · exact hp

theorem parseHost_hostChar {h0 h : List Char} (hp : parseHost h0 = .ok h) (hpct : '%' ∉ h) :
    ∀ c ∈ h, c ≠ '%' ∧ HostChar c := fun c hc =>
  ⟨fun e => hpct (e ▸ hc), (unescape_host_hostChar _ (parseHost_eq_unescape hp hpct) c hc).resolve_left
    fun e => hpct (e ▸ hc)⟩

/-- A decoded host parses to itself: `parseHost` accepts a host it returned, when that host
holds no `%`, cuts it at the same `]` or `:`, and returns it unchanged. -/
theorem parseHost_reparse {h0 h : List Char} (hp : parseHost h0 = .ok h) (hpct : '%' ∉ h) :
    parseHost h = .ok h := by
  have hu := parseHost_eq_unescape hp hpct
  have hid : unescape .host h = .ok h := unescape_host_id (parseHost_hostChar hp hpct)
  unfold parseHost at hp
  split at hp
  · -- a bracketed literal: the last `]` and the port are kept, the literal is decoded
    split at hp
    · cases hp
    rename_i literal colonPort hcut
    split at hp
    · cases hp
    rename_i hport
    replace hport : validOptionalPort colonPort = true := by simpa using hport
    obtain ⟨hsplit, hnot⟩ := cutLast_eq_some hcut
    rw [hsplit] at hu
    obtain ⟨t1, h1, rfl⟩ := unescape_host_port (.inr rfl) (validOptionalPort_chars hport) hu
    match literal, hsplit, h1 with
    | [], hsplit, _ => cases hsplit
    | d :: lit, hsplit, h1 =>
      cases (List.cons.inj hsplit).1
      rw [unescape.eq_5 _ _ _ (fun _ _ _ h _ => by cases h) (by decide) (by decide),
        if_neg (by decide)] at h1
      obtain ⟨t1', -, rfl⟩ := map_eq_ok h1
      rw [List.cons_append] at hid ⊢
      unfold parseHost
      rw [← List.cons_append, cutLast_append_cons hnot]
      simp only [hport, Bool.not_true, Bool.false_eq_true, ↓reduceIte]
      rw [splitAtZone_of_not_mem fun hm => hpct (List.mem_append_left _ hm)]
      exact hid
  · -- a name: decoding writes no `[` first and no `:`
    rename_i hnb
    have hhead : h.head? ≠ some '[' := by
      cases h0 with
      | nil =>
        cases hu
        simp
      | cons d s => exact unescape_host_head hu fun e => hnb s (e ▸ rfl)
    split at hp
    · rename_i a port hcut
      split at hp
      · cases hp
      rename_i hport
      replace hport : validOptionalPort (':' :: port) = true := by simpa using hport
      obtain ⟨hsplit, hnot⟩ := cutLast_eq_some hcut
      rw [hsplit] at hu
      obtain ⟨t1, -, rfl⟩ := unescape_host_port (.inl rfl)
        (fun c hc => validOptionalPort_chars hport c (List.mem_cons_of_mem _ hc)) hu
      rw [parseHost_of_not_bracket hhead fun a' port' hc => by
        rw [cutLast_append_cons hnot] at hc
        cases hc
        exact hport]
      exact hid
    · rename_i hnone
      have hnone' : cutLast ':' h = none := cutLast_of_not_mem fun hm => by
        rcases unescape_host_mem _ hu ':' hm with hm | hm | hm | hm
        · exact cutLast_eq_none hnone hm
        all_goals revert hm; decide
      rw [parseHost_of_not_bracket hhead fun _ _ hc => by rw [hnone'] at hc; cases hc]
      exact hid

theorem parse_host_eq {rawURL : List Char} {viaRequest : Bool} {u : URL}
    (h : parse rawURL viaRequest = .ok u) : u.host = "" ∨ ∃ h0, parseHost h0 = .ok u.host.data := by
  rcases parse_cases h with ⟨-, rfl⟩ | ⟨scheme, rest, -, h⟩
  · exact .inl rfl
  rcases (parseAfterScheme_cases h).2.2 with hhost | ⟨authority, r, hauth, hhost⟩
  · exact .inl hhost
  · rw [hhost]
    exact .inr (parseAuthority_host hauth)

theorem parseAuthority_reparse {h0 h : List Char} (hp : parseHost h0 = .ok h) (hpct : '%' ∉ h) :
    parseAuthority h = .ok (none, h) := by
  have hat : '@' ∉ h := fun hm => absurd (parseHost_hostChar hp hpct '@' hm).2 (by decide)
  rw [parseAuthority, cutLast_of_not_mem hat, parseHost_reparse hp hpct]
  rfl

/-- The host of a parsed URL is an authority on its own, when it holds no `%`: it parses to
itself, with no user, and holds host characters only. -/
theorem parse_host_reparse {rawURL : List Char} {viaRequest : Bool} {u : URL}
    (h : parse rawURL viaRequest = .ok u) (hpct : '%' ∉ u.host.data) :
    parseAuthority u.host.data = .ok (none, u.host.data) ∧ ∀ c ∈ u.host.data, HostChar c := by
  rcases parse_host_eq h with hhost | ⟨h0, hp⟩
  · rw [hhost]
    exact ⟨rfl, by simp⟩
  · exact ⟨parseAuthority_reparse hp hpct, fun c hc => (parseHost_hostChar hp hpct c hc).2⟩

/-! ### Parsing a web URL, forward -/

theorem escape_not_isCTL (mode : Encoding) (s : List Char) :
    ∀ c ∈ escape mode s, isCTL c = false := by
  intro c hc
  simp only [escape, List.mem_flatMap] at hc
  obtain ⟨d, -, hd⟩ := hc
  unfold escapeChar at hd
  split at hd
  · rw [List.mem_singleton.mp hd]
    rfl
  split at hd
  · have hhex : ∀ n, isCTL (upperhex n) = false := fun n =>
      (by decide : ∀ e ∈ "0123456789ABCDEF".data, isCTL e = false) _ (upperhex_mem n)
    rcases hd with _ | ⟨_, _ | ⟨_, _ | ⟨_, ⟨⟩⟩⟩⟩
    exacts [rfl, hhex _, hhex _]
  · rename_i hesc
    rw [List.mem_singleton.mp hd, Bool.eq_false_iff]
    exact fun hctl => hesc (shouldEscape_of_isCTL hctl mode)

theorem encode_not_isCTL (v : List (String × List String)) :
    ∀ c ∈ (encode v).data, isCTL c = false := by
  intro c hc
  rcases mem_encode hc with rfl | rfl | ⟨s, hs⟩
  exacts [rfl, rfl, escape_not_isCTL _ s c hs]

/-- `parse` of an http or https URL without control characters goes on after its scheme. -/
theorem parse_web_eq {scheme : String} (hs : scheme = "http" ∨ scheme = "https")
    {rest : List Char} (hctl : ∀ c ∈ scheme.data ++ ':' :: rest, isCTL c = false)
    (viaRequest : Bool) :
    parse (scheme.data ++ ':' :: rest) viaRequest = parseAfterScheme scheme.data rest viaRequest := by
  have hany : (scheme.data ++ ':' :: rest).any isCTL = false := by
    rw [List.any_eq_false]
    exact fun c hc h => by rw [hctl c hc] at h; cases h
  unfold parse
  rw [if_neg (by rw [hany]; decide), getScheme_web hs]
  rcases hs with rfl | rfl <;> rfl

/-- `url.Parse` on an http or https URL, forward: on `scheme://authority/path` followed by a
raw query part, with no control character and no `#`, an authority that parses and a path that
decodes, `url.Parse` succeeds with the scheme, the user and host of the authority, the decoded
path and the raw query. -/
theorem urlParse_authority_eq {s scheme : String} (hs : scheme = "http" ∨ scheme = "https")
    {auth path tail query : List Char}
    (hdata : s.data = scheme.data ++ ':' :: '/' :: '/' :: (auth ++ path ++ tail))
    (hctl : ∀ c ∈ s.data, isCTL c = false) (hfrag : '#' ∉ s.data) (hauth : '/' ∉ auth)
    (hpath : path.head? = some '/')
    (hsplit : splitQuery ('/' :: '/' :: (auth ++ path ++ tail)) =
      ('/' :: '/' :: (auth ++ path), query, false))
    {r : Option Userinfo × List Char} (hr : parseAuthority auth = .ok r) {p : List Char}
    (hp : unescape .path path = .ok p) :
    urlParse s = .ok
      { scheme := scheme, rawQuery := String.mk query, user := r.1, host := String.mk r.2,
        path := String.mk p,
        rawPath := if escape .path p == path then "" else String.mk path } := by
  have hscheme : scheme.data ≠ [] := by rcases hs with rfl | rfl <;> decide
  rw [hdata] at hctl
  unfold urlParse
  rw [cut_of_not_mem hfrag, hdata]
  dsimp only
  rw [parse_web_eq hs hctl, parseAfterScheme_authority_eq hscheme hsplit hauth hpath, hr]
  simp [setPath, hp, bind, Except.bind]

/-! ### `url.Parse` against `url.ParseRequestURI` -/

theorem parseAfterScheme_viaRequest {scheme : List Char} (hs : scheme ≠ []) (rest : List Char) :
    parseAfterScheme scheme rest true = parseAfterScheme scheme rest false := by
  have hempty : scheme.isEmpty = false := by cases scheme <;> simp_all
  unfold parseAfterScheme
  rcases splitQuery rest with ⟨r, q, f⟩
  by_cases hh : r.head? = some '/' <;> simp [hempty, hh]

theorem parse_viaRequest {rawURL : List Char} {u : URL} (h : parse rawURL true = .ok u)
    (hscheme : u.scheme ≠ "") : parse rawURL false = .ok u := by
  rcases parse_cases h with ⟨-, rfl⟩ | ⟨scheme, rest, hsch, h'⟩
  · exact absurd rfl hscheme
  have hne : scheme.map Char.toLower ≠ [] := fun he =>
    hscheme (by rw [(parseAfterScheme_cases h').1, he])
  have hctl : rawURL.any isCTL = false := by
    cases hc : rawURL.any isCTL
    · rfl
    · simp [parse, hc] at h
  have hstar : (rawURL == ['*']) = false := by
    cases hc : rawURL == ['*']
    · rfl
    · rw [beq_iff_eq.mp hc] at hsch
      simp only [getScheme, getScheme.go] at hsch
      cases hsch
      exact absurd rfl hne
  unfold parse
  rw [if_neg (by simp [hctl]), if_neg (by simp), if_neg (by simp [hstar]), hsch]
  dsimp only
  rw [← parseAfterScheme_viaRequest hne]
  exact h'

/-- **`url.Parse` agrees with `url.ParseRequestURI`** on a URL that has a scheme and no `#`. -/
theorem urlParse_of_parseRequestURI {s : String} {u : URL} (h : parseRequestURI s = .ok u)
    (hfrag : '#' ∉ s.data) (hscheme : u.scheme ≠ "") : urlParse s = .ok u := by
  unfold urlParse
  rw [cut_of_not_mem hfrag]
  dsimp only
  rw [parse_viaRequest (parseRequestURI_eq_ok.mp h) hscheme]
  rfl

/-! ### A host with a broken escape

A zone such as `%25en0` is decoded to `%en0`, and `newEndpoint` prints it so into every category
URL. Parsing that URL again reads `%en` as an escape, which is broken. -/

theorem shouldEscape_zone (c : Char) : shouldEscape c .zone = shouldEscape c .host := rfl

theorem decoded_zone {a b : Char} {hi lo : Nat} (ha : unhex a = some hi) (hb : unhex b = some lo)
    (hzone : ¬(Encoding.zone == .zone && !(a == '2' && b == '5') && hi * 16 + lo != 32 &&
      shouldEscape (Char.ofNat (hi * 16 + lo)) .host) = true) :
    Char.ofNat (hi * 16 + lo) = '%' ∨ Char.ofNat (hi * 16 + lo) = ' ' ∨
      HostChar (Char.ofNat (hi * 16 + lo)) := by
  by_cases h25 : a = '2' ∧ b = '5'
  · obtain ⟨rfl, rfl⟩ := h25
    cases ha
    cases hb
    exact .inl rfl
  · have hne : (a == '2' && b == '5') = false := by simpa using h25
    by_cases h32 : hi * 16 + lo = 32
    · exact .inr (.inl (by rw [h32]))
    · exact .inr (.inr (.inr (by simpa [hne, h32] using hzone)))

theorem unescape_zone_chars {s : List Char} :
    ∀ t, unescape .zone s = .ok t → ∀ c ∈ t, c = '%' ∨ c = ' ' ∨ HostChar c :=
  unescape_forall (fun _ _ _ _ ha hb _ hzone => decoded_zone ha hb hzone) (by decide) s
    (fun c _ hok => .inr (.inr (by
      by_cases hlt : c.toNat < 128
      · exact .inr (by simpa [hlt, shouldEscape_zone] using hok)
      · exact .inl (by omega))))

/-- What `parseHost` returns is decoded text: a property of every character that decoding a host
or a zone writes holds of every character of a parsed host. -/
theorem parseHost_forall {P : Char → Prop}
    (hhost : ∀ s t, unescape .host s = .ok t → ∀ c ∈ t, P c)
    (hzone : ∀ s t, unescape .zone s = .ok t → ∀ c ∈ t, P c) {h0 h : List Char}
    (hp : parseHost h0 = .ok h) : ∀ c ∈ h, P c := by
  unfold parseHost at hp
  split at hp
  · split at hp
    · cases hp
    split at hp
    · cases hp
    split at hp
    · obtain ⟨t1, h1, hp⟩ := bind_eq_ok hp
      obtain ⟨t2, h2, hp⟩ := bind_eq_ok hp
      obtain ⟨t3, h3, hp⟩ := bind_eq_ok hp
      cases hp
      simp only [List.mem_append]
      rintro c ((hc | hc) | hc)
      exacts [hhost _ _ h1 c hc, hzone _ _ h2 c hc, hhost _ _ h3 c hc]
    · exact hhost _ _ hp
  · split at hp
    · split at hp
      · cases hp
      · exact hhost _ _ hp
    · exact hhost _ _ hp

/-- The host of a parsed URL holds no `@`: decoding a host or a zone never writes one. -/
theorem parse_host_at {rawURL : List Char} {viaRequest : Bool} {u : URL}
    (h : parse rawURL viaRequest = .ok u) : '@' ∉ u.host.data := by
  rcases parse_host_eq h with hhost | ⟨h0, hp⟩
  · simp [hhost]
  · intro hc
    have := parseHost_forall (P := fun c => c = '%' ∨ c = ' ' ∨ HostChar c)
      (fun _ t hu c hc => (unescape_host_hostChar t hu c hc).imp_right .inr)
      (fun _ => unescape_zone_chars) hp '@' hc
    revert this
    decide

/-- Decoding stops at a broken escape: a text whose first `%` is not followed by two
hexadecimal digits does not decode, whatever the component. -/
theorem unescape_error_of_bad_escape {m : Encoding} {r : List Char}
    (hbad : ∀ c1 c2 rest, r = c1 :: c2 :: rest → unhex c1 = none ∨ unhex c2 = none) :
    ∀ {a : List Char}, '%' ∉ a → ∃ e, unescape m (a ++ '%' :: r) = .error e
  | [], _ => by
    match r, hbad with
    | [], _ => exact ⟨_, rfl⟩
    | [_], _ => exact ⟨_, rfl⟩
    | c1 :: c2 :: rest, hbad =>
      rw [List.nil_append, unescape.eq_2]
      cases h1 : unhex c1 with
      | none => exact ⟨_, rfl⟩
      | some hi =>
        cases h2 : unhex c2 with
        | none => exact ⟨_, rfl⟩
        | some lo => simp [h1, h2] at hbad
  | d :: a, ha => by
    rw [List.mem_cons, not_or] at ha
    obtain ⟨e, he⟩ := unescape_error_of_bad_escape hbad ha.2
    have hpct : d ≠ '%' := fun h => ha.1 h.symm
    by_cases hplus : d = '+'
    · subst hplus
      exact ⟨e, by rw [List.cons_append, unescape.eq_4, he]; rfl⟩
    · rw [List.cons_append, unescape.eq_5 _ _ _ (fun _ _ _ h _ => hpct h) hpct hplus, he]
      split
      exacts [⟨_, rfl⟩, ⟨e, rfl⟩]

theorem bad_escape_before_zone {a r before s : List Char} (ha : '%' ∉ a)
    (hbad : ∀ c1 c2 rest, r = c1 :: c2 :: rest → unhex c1 = none ∨ unhex c2 = none)
    (h : a ++ '%' :: r = before ++ '%' :: '2' :: '5' :: s) :
    ∃ r', before = a ++ '%' :: r' ∧
      ∀ c1 c2 rest, r' = c1 :: c2 :: rest → unhex c1 = none ∨ unhex c2 = none := by
  have h25 : r ≠ '2' :: '5' :: s := fun hr => by
    rcases hbad _ _ _ hr with h | h <;> exact absurd h (by decide)
  rcases List.append_eq_append_iff.mp h with ⟨a', rfl, ha'⟩ | ⟨c', rfl, hc'⟩
  · cases a' with
    | nil => exact absurd (List.cons.inj ha').2 h25
    | cons x a' =>
      obtain ⟨rfl, rfl⟩ := List.cons.inj ha'
      exact ⟨a', rfl, fun c1 c2 rest hr => hbad c1 c2 _ (by rw [hr]; rfl)⟩
  · cases c' with
    | nil => exact absurd (List.cons.inj hc').2.symm h25
    | cons x c' =>
      obtain ⟨rfl, -⟩ := List.cons.inj hc'
      exact absurd (List.mem_append_right _ (List.mem_cons_self _ _)) ha

/-- A host with a broken escape does not parse: `parseHost` rejects a host whose first `%`
is not followed by two hexadecimal digits, inside brackets or not, before a zone or in it. -/
theorem parseHost_error_of_bad_escape {a r : List Char} (ha : '%' ∉ a)
    (hbad : ∀ c1 c2 rest, r = c1 :: c2 :: rest → unhex c1 = none ∨ unhex c2 = none) :
    ∃ e, parseHost (a ++ '%' :: r) = .error e := by
  have hdec := unescape_error_of_bad_escape (m := .host) hbad ha
  unfold parseHost
  split
  · split
    · exact ⟨_, rfl⟩
    rename_i literal colonPort hcut
    split
    · exact ⟨_, rfl⟩
    split
    · rename_i before zone hzone
      obtain ⟨hsplit, -⟩ := cutLast_eq_some hcut
      obtain ⟨rest, rfl, rfl⟩ := splitAtZone_eq_some hzone
      simp only [List.append_assoc, List.cons_append] at hsplit
      obtain ⟨r', rfl, hbad'⟩ := bad_escape_before_zone ha hbad hsplit
      obtain ⟨e, he⟩ := unescape_error_of_bad_escape (m := .host) hbad' ha
      rw [he]
      exact ⟨e, rfl⟩
    · exact hdec
  · split
    · split
      · exact ⟨_, rfl⟩
      · exact hdec
    · exact hdec

end LeanDataway.NetUrl
