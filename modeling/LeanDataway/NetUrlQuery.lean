import LeanDataway.NetUrlParse

/-! `Values.Encode` read back by `ParseQuery`. `Encode` escapes every key and value, so each
`key=value` piece of an encoded query splits at its first `=`, the pieces split at `&`, and each
decodes to the key and value it was written from. Reading an encoded query back therefore adds
the values of the sorted map one by one, and `Get` finds the first value of every key again:
the round trip holds for maps with distinct keys whose texts are byte strings (characters below
256), as every map that `ParseQuery` reads from a byte string is. -/

namespace LeanDataway.NetUrl

/-- A text whose characters stand for bytes. -/
def Bytes (s : List Char) : Prop := ∀ c ∈ s, c.toNat < 256

instance : DecidablePred Bytes := fun _ => inferInstanceAs (Decidable (∀ _ ∈ _, _))

/-- A `url.Values` map whose keys are distinct and whose keys and values are byte strings. -/
def WellFormed (v : List (String × List String)) : Prop :=
  (v.map Prod.fst).Nodup ∧ ∀ kv ∈ v, Bytes kv.1.data ∧ ∀ x ∈ kv.2, Bytes x.data

instance : DecidablePred WellFormed := fun _ => inferInstanceAs (Decidable (_ ∧ _))

def pairsOf (v : List (String × List String)) : List (String × String) :=
  v.flatMap fun kv => kv.2.map (kv.1, ·)

/-- The `key=value` text that `Encode` writes for one value. -/
def piece (kx : String × String) : List Char :=
  escape .queryComponent kx.1.data ++ '=' :: escape .queryComponent kx.2.data

/-! ### Decoding what was escaped -/

theorem unhex_upperhex : ∀ n < 16, unhex (upperhex n) = some n := by
  decide

theorem unhex_lt {c : Char} {n : Nat} (h : unhex c = some n) : n < 16 := by
  unfold unhex at h
  split_ifs at h with h1 h2 h3 <;> cases h
  · have : c.toNat ≤ 57 := h1.2
    omega
  · have : c.toNat ≤ 102 := h2.2
    omega
  · have : c.toNat ≤ 70 := h3.2
    omega

theorem unescape_escapeChar {c : Char} (hc : c.toNat < 256) (rest : List Char) :
    unescape .queryComponent (escapeChar .queryComponent c ++ rest) =
      (c :: ·) <$> unescape .queryComponent rest := by
  unfold escapeChar
  split
  · rename_i hspace
    obtain rfl : c = ' ' := by simpa using hspace
    rfl
  split
  · rename_i hesc
    have hhost : (Encoding.queryComponent == .host) = false := rfl
    have hzone : (Encoding.queryComponent == .zone) = false := rfl
    rw [List.cons_append, List.cons_append, List.cons_append, List.nil_append, unescape.eq_2,
      unhex_upperhex _ (by omega), unhex_upperhex _ (by omega)]
    simp only [hhost, hzone, Bool.false_and, Bool.false_eq_true, ↓reduceIte]
    rw [show c.toNat / 16 * 16 + c.toNat % 16 = c.toNat by omega, Char.ofNat_toNat]
  · rename_i hesc
    have hpct : c ≠ '%' := by rintro rfl; exact hesc rfl
    have hplus : c ≠ '+' := by rintro rfl; exact hesc rfl
    rw [List.singleton_append, unescape.eq_5 _ _ _ (fun _ _ _ h _ => hpct h) hpct hplus]
    rfl

/-- Decoding undoes escaping on a byte string. -/
theorem unescape_escape {s : List Char} (h : Bytes s) :
    unescape .queryComponent (escape .queryComponent s) = .ok s := by
  induction s with
  | nil => rfl
  | cons c s ih =>
    rw [escape, List.flatMap_cons, unescape_escapeChar (h c (List.mem_cons_self _ _)),
      ← escape, ih fun d hd => h d (List.mem_cons_of_mem _ hd)]
    rfl

/-! ### Splitting an encoded query -/

theorem mem_intersperse_of_mem {α : Type} {sep x : α} :
    ∀ {l : List α}, x ∈ l → x ∈ l.intersperse sep
  | [_], h => h
  | a :: b :: l, h => by
    rw [List.intersperse_cons₂]
    rcases List.mem_cons.mp h with rfl | h
    · exact List.mem_cons_self _ _
    · exact List.mem_cons_of_mem _ (List.mem_cons_of_mem _ (mem_intersperse_of_mem h))

theorem subset_intercalate {α : Type} {sep p : List α} {ps : List (List α)} (h : p ∈ ps) :
    p ⊆ sep.intercalate ps :=
  fun _ ha => List.mem_flatten_of_mem (mem_intersperse_of_mem h) ha

theorem subset_of_mem_splitOn {c : Char} {s p : List Char} (h : p ∈ s.splitOn c) : p ⊆ s := by
  have hs := @subset_intercalate _ [c] _ _ h
  rwa [List.intercalate_splitOn] at hs

theorem not_mem_piece {c : Char} (hesc : shouldEscape c .queryComponent = true)
    (hc : c ∉ "+%0123456789ABCDEF".data) (heq : c ≠ '=') (kx : String × String) :
    c ∉ piece kx := by
  simp only [piece, List.mem_append, List.mem_cons, not_or]
  exact ⟨not_mem_escape hesc hc _, heq, not_mem_escape hesc hc _⟩

theorem parseQueryPiece_piece {kx : String × String} (hk : Bytes kx.1.data)
    (hx : Bytes kx.2.data) (m : List (String × List String)) :
    parseQueryPiece m (piece kx) = valuesAdd m kx.1 kx.2 := by
  have hsemi : ';' ∉ piece kx := not_mem_piece (by decide) (by decide) (by decide) kx
  have hne : (piece kx).isEmpty = false := by simp [piece]
  have hcut : cut '=' (piece kx) =
      (escape .queryComponent kx.1.data, escape .queryComponent kx.2.data, true) :=
    cut_append_cons (not_mem_escape (by decide) (by decide) _)
  simp only [parseQueryPiece, List.elem_eq_mem, hsemi, decide_False, hne, Bool.or_self,
    Bool.false_eq_true, ↓reduceIte, hcut, unescape_escape hk, unescape_escape hx]

/-- `ParseQuery` on an encoded query adds the values of the sorted map one by one. -/
theorem parseQuery_encode {v : List (String × List String)}
    (hv : ∀ kx ∈ pairsOf (v.insertionSort fun a b => lexLe a.1.data b.1.data),
      Bytes kx.1.data ∧ Bytes kx.2.data) :
    parseQuery (encode v).data =
      (pairsOf (v.insertionSort fun a b => lexLe a.1.data b.1.data)).foldl
        (fun m kx => valuesAdd m kx.1 kx.2) [] := by
  have hdata : (encode v).data = ['&'].intercalate
      ((pairsOf (v.insertionSort fun a b => lexLe a.1.data b.1.data)).map piece) := by
    simp [encode, pairsOf, piece, List.map_flatMap, Function.comp_def]
  rw [hdata]
  cases hps : pairsOf (v.insertionSort fun a b => lexLe a.1.data b.1.data) with
  | nil => rfl
  | cons kx ps =>
    rw [hps] at hv
    have hamp : ∀ p ∈ (kx :: ps).map piece, '&' ∉ p := fun p hp => by
      obtain ⟨kx, -, rfl⟩ := List.mem_map.mp hp
      exact not_mem_piece (by decide) (by decide) (by decide) kx
    rw [parseQuery, List.splitOn_intercalate _ '&' hamp (by simp), List.foldl_map]
    exact List.foldl_ext _ _ _ fun m kx hkx => parseQueryPiece_piece (hv kx hkx).1 (hv kx hkx).2 m

/-! ### Reading the values back -/

theorem lookup_valuesAdd (m : List (String × List String)) (k key value : String) :
    (valuesAdd m key value).lookup k =
      if k = key then some ((m.lookup k).getD [] ++ [value]) else m.lookup k := by
  induction m with
  | nil =>
    by_cases h : k = key
    · simp [valuesAdd, h]
    · simp [valuesAdd, List.lookup, h, beq_false_of_ne h]
  | cons kv m ih =>
    obtain ⟨k', vs⟩ := kv
    by_cases hk' : k' = key
    · subst hk'
      by_cases h : k = k'
      · simp [valuesAdd, h]
      · simp [valuesAdd, List.lookup, h, beq_false_of_ne h]
    · have hne : (k' == key) = false := by simpa using hk'
      by_cases h : k = k'
      · subst h
        simp [valuesAdd, hne, hk']
      · simp [valuesAdd, List.lookup, hne, h, beq_false_of_ne h, ih]

theorem valuesGet_foldl_valuesAdd (ps : List (String × String)) (m : List (String × List String))
    (k : String) :
    valuesGet (ps.foldl (fun m kx => valuesAdd m kx.1 kx.2) m) k =
      match m.lookup k with
      | some (x :: _) => x
      | _ => (ps.lookup k).getD "" := by
  induction ps generalizing m with
  | nil =>
    rw [List.foldl_nil]
    unfold valuesGet
    cases m.lookup k with
    | none => rfl
    | some vs => cases vs <;> rfl
  | cons kx ps ih =>
    obtain ⟨key, value⟩ := kx
    rw [List.foldl_cons, ih, lookup_valuesAdd]
    by_cases h : k = key
    · subst h
      cases m.lookup k with
      | none => simp [List.lookup]
      | some vs => cases vs <;> simp [List.lookup]
    · simp [h, List.lookup, beq_false_of_ne h]

theorem lookup_pairsOf_eq_none {l : List (String × List String)} {k : String}
    (hk : k ∉ l.map Prod.fst) : (pairsOf l).lookup k = none := by
  rw [List.lookup_eq_none_iff]
  intro p hp
  simp only [pairsOf, List.mem_flatMap, List.mem_map] at hp
  obtain ⟨kv, hkv, x, -, rfl⟩ := hp
  simp only [bne_iff_ne, ne_eq]
  rintro rfl
  exact hk (List.mem_map_of_mem _ hkv)

theorem lookup_pairsOf {l : List (String × List String)} (hnd : (l.map Prod.fst).Nodup)
    (k : String) : ((pairsOf l).lookup k).getD "" = valuesGet l k := by
  induction l with
  | nil => rfl
  | cons kv l ih =>
    obtain ⟨key, vs⟩ := kv
    rw [List.map_cons, List.nodup_cons] at hnd
    rw [show pairsOf ((key, vs) :: l) = vs.map (key, ·) ++ pairsOf l from rfl, List.lookup_append]
    by_cases h : k = key
    · subst h
      cases vs with
      | nil => simp [lookup_pairsOf_eq_none hnd.1, valuesGet, List.lookup]
      | cons x xs => simp [valuesGet, List.lookup]
    · have hnone : (vs.map (key, ·)).lookup k = none := by simp [h]
      rw [hnone, Option.none_or, ih hnd.2]
      simp [valuesGet, List.lookup, beq_false_of_ne h]

theorem lookup_of_perm {l₁ l₂ : List (String × List String)} (hp : l₁.Perm l₂)
    (hnd : (l₁.map Prod.fst).Nodup) (k : String) : l₁.lookup k = l₂.lookup k := by
  induction hp with
  | nil => rfl
  | cons kv _ ih =>
    rw [List.map_cons, List.nodup_cons] at hnd
    obtain ⟨key, vs⟩ := kv
    by_cases h : k = key
    · subst h
      simp
    · simp [List.lookup, beq_false_of_ne h, ih hnd.2]
  | swap a b l =>
    obtain ⟨ka, va⟩ := a
    obtain ⟨kb, vb⟩ := b
    simp only [List.map_cons, List.nodup_cons, List.mem_cons, not_or] at hnd
    by_cases hb : k = kb
    · subst hb
      simp [List.lookup, beq_false_of_ne hnd.1.1]
    · simp [List.lookup, beq_false_of_ne hb]
  | trans h₁ _ ih₁ ih₂ => rw [ih₁ hnd, ih₂ ((h₁.map Prod.fst).nodup_iff.mp hnd)]

theorem bytes_pairsOf_insertionSort {v : List (String × List String)} (hv : WellFormed v) :
    ∀ kx ∈ pairsOf (v.insertionSort fun a b => lexLe a.1.data b.1.data),
      Bytes kx.1.data ∧ Bytes kx.2.data := by
  intro kx hkx
  simp only [pairsOf, List.mem_flatMap, List.mem_map] at hkx
  obtain ⟨kv, hkv, x, hx, rfl⟩ := hkx
  have := hv.2 kv ((List.perm_insertionSort _ v).subset hkv)
  exact ⟨this.1, this.2 x hx⟩

/-- `ParseQuery` reads back what `Encode` wrote: on a well-formed map, `Get` of the parsed
encoding is `Get` of the map, for every key. -/
theorem valuesGet_parseQuery_encode {v : List (String × List String)} (hv : WellFormed v)
    (k : String) : valuesGet (parseQuery (encode v).data) k = valuesGet v k := by
  have hperm : (v.insertionSort fun a b => lexLe a.1.data b.1.data).Perm v :=
    List.perm_insertionSort _ v
  have hnd := (hperm.map Prod.fst).nodup_iff.mpr hv.1
  rw [parseQuery_encode (bytes_pairsOf_insertionSort hv), valuesGet_foldl_valuesAdd,
    List.lookup_nil, lookup_pairsOf hnd]
  unfold valuesGet
  rw [lookup_of_perm hperm hnd]

/-! ### Reading the whole map back -/

theorem valuesAdd_of_not_mem {m : List (String × List String)} {key : String}
    (h : key ∉ m.map Prod.fst) (value : String) : valuesAdd m key value = m ++ [(key, [value])] := by
  induction m with
  | nil => rfl
  | cons kv m ih =>
    simp only [List.map_cons, List.mem_cons, not_or] at h
    simp [valuesAdd, Ne.symm h.1, ih h.2]

theorem valuesAdd_append_self {m : List (String × List String)} {key : String}
    (h : key ∉ m.map Prod.fst) (vs : List String) (value : String) :
    valuesAdd (m ++ [(key, vs)]) key value = m ++ [(key, vs ++ [value])] := by
  induction m with
  | nil => simp [valuesAdd]
  | cons kv m ih =>
    simp only [List.map_cons, List.mem_cons, not_or] at h
    simp [valuesAdd, Ne.symm h.1, ih h.2]

theorem foldl_valuesAdd_append_self {m : List (String × List String)} {key : String}
    (h : key ∉ m.map Prod.fst) (xs : List String) : ∀ vs : List String,
    (xs.map (key, ·)).foldl (fun m kx => valuesAdd m kx.1 kx.2) (m ++ [(key, vs)]) =
      m ++ [(key, vs ++ xs)] := by
  induction xs with
  | nil => simp
  | cons x xs ih =>
    intro vs
    rw [List.map_cons, List.foldl_cons, valuesAdd_append_self h, ih, List.append_assoc,
      List.singleton_append]

theorem foldl_valuesAdd_key {m : List (String × List String)} {key : String}
    (h : key ∉ m.map Prod.fst) : ∀ vs : List String,
    (vs.map (key, ·)).foldl (fun m kx => valuesAdd m kx.1 kx.2) m =
      if vs = [] then m else m ++ [(key, vs)]
  | [] => rfl
  | x :: xs => by
    rw [List.map_cons, List.foldl_cons, valuesAdd_of_not_mem h, if_neg (List.cons_ne_nil _ _),
      foldl_valuesAdd_append_self h, List.singleton_append]

theorem foldl_valuesAdd_pairsOf {l : List (String × List String)} (hl : (l.map Prod.fst).Nodup) :
    ∀ {m : List (String × List String)}, (∀ k ∈ l.map Prod.fst, k ∉ m.map Prod.fst) →
      (pairsOf l).foldl (fun m kx => valuesAdd m kx.1 kx.2) m =
        m ++ l.filter fun kv => !kv.2.isEmpty := by
  induction l with
  | nil => simp [pairsOf]
  | cons kv l ih =>
    obtain ⟨key, vs⟩ := kv
    rw [List.map_cons, List.nodup_cons] at hl
    intro m hm
    have hkey : key ∉ m.map Prod.fst := hm key (List.mem_cons_self _ _)
    have hrest : ∀ k ∈ l.map Prod.fst, k ∉ m.map Prod.fst :=
      fun k hk => hm k (List.mem_cons_of_mem _ hk)
    rw [show pairsOf ((key, vs) :: l) = vs.map (key, ·) ++ pairsOf l from rfl, List.foldl_append,
      foldl_valuesAdd_key hkey]
    by_cases hvs : vs = []
    · subst hvs
      simp [ih hl.2 hrest]
    · have hrest' : ∀ k ∈ l.map Prod.fst, k ∉ (m ++ [(key, vs)]).map Prod.fst := by
        intro k hk
        simp only [List.map_append, List.map_cons, List.map_nil, List.mem_append,
          List.mem_singleton, not_or]
        exact ⟨hrest k hk, fun h => hl.1 (h ▸ hk)⟩
      simp [hvs, ih hl.2 hrest']

/-- **`ParseQuery` gives back the map that `Encode` wrote**: on a well-formed map, the parsed
encoding is the map with its keys sorted, less the keys that hold no value. -/
theorem parseQuery_encode_eq {v : List (String × List String)} (hv : WellFormed v) :
    parseQuery (encode v).data =
      (v.insertionSort fun a b => lexLe a.1.data b.1.data).filter fun kv => !kv.2.isEmpty := by
  have hperm : (v.insertionSort fun a b => lexLe a.1.data b.1.data).Perm v :=
    List.perm_insertionSort _ v
  rw [parseQuery_encode (bytes_pairsOf_insertionSort hv),
    foldl_valuesAdd_pairsOf ((hperm.map Prod.fst).nodup_iff.mpr hv.1) (by simp),
    List.nil_append]

theorem parseQuery_encode_eq_example :
    WellFormed [("b", ["2"]), ("a", ["1", "x y"]), ("c", [])] ∧
      parseQuery (encode [("b", ["2"]), ("a", ["1", "x y"]), ("c", [])]).data =
        [("a", ["1", "x y"]), ("b", ["2"])] :=
  ⟨by decide, (parseQuery_encode_eq (by decide)).trans (by decide)⟩

/-! ### What `ParseQuery` reads -/

theorem keys_valuesAdd (m : List (String × List String)) (key value : String) :
    (valuesAdd m key value).map Prod.fst =
      if key ∈ m.map Prod.fst then m.map Prod.fst else m.map Prod.fst ++ [key] := by
  induction m with
  | nil => rfl
  | cons kv m ih =>
    obtain ⟨k', vs⟩ := kv
    by_cases hk : k' = key
    · subst hk
      simp [valuesAdd]
    · have hne : (k' == key) = false := by simpa using hk
      simp only [valuesAdd, hne, Bool.false_eq_true, ↓reduceIte, List.map_cons, ih,
        List.mem_cons, Ne.symm hk, false_or]
      split <;> rfl

theorem bytes_valuesAdd {m : List (String × List String)}
    (hm : ∀ kv ∈ m, Bytes kv.1.data ∧ ∀ x ∈ kv.2, Bytes x.data) {key value : String}
    (hk : Bytes key.data) (hx : Bytes value.data) :
    ∀ kv ∈ valuesAdd m key value, Bytes kv.1.data ∧ ∀ x ∈ kv.2, Bytes x.data := by
  induction m with
  | nil => simp [valuesAdd, hk, hx]
  | cons kv m ih =>
    have hkv := hm kv (List.mem_cons_self _ _)
    have hrest := fun kv' h => hm kv' (List.mem_cons_of_mem _ h)
    unfold valuesAdd
    split
    · rintro kv' (_ | ⟨_, h⟩)
      · refine ⟨hkv.1, fun x hx' => ?_⟩
        rcases List.mem_append.mp hx' with h | h
        exacts [hkv.2 x h, (List.mem_singleton.mp h) ▸ hx]
      · exact hrest kv' h
    · rintro kv' (_ | ⟨_, h⟩)
      exacts [hkv, ih hrest kv' h]

theorem wellFormed_valuesAdd {m : List (String × List String)} (hm : WellFormed m)
    {key value : String} (hk : Bytes key.data) (hx : Bytes value.data) :
    WellFormed (valuesAdd m key value) := by
  refine ⟨?_, bytes_valuesAdd hm.2 hk hx⟩
  rw [keys_valuesAdd]
  split
  · exact hm.1
  · rename_i hnew
    exact List.nodup_append.mpr ⟨hm.1, List.nodup_singleton _, by simpa using hnew⟩

theorem unescape_bytes {s t : List Char} (hs : Bytes s) (h : unescape .queryComponent s = .ok t) :
    Bytes t :=
  unescape_forall (P := fun c => c.toNat < 256)
    (fun _ _ hi lo ha hb _ _ => by
      have := unhex_lt ha
      have := unhex_lt hb
      rcases toNat_ofNat_eq_or (hi * 16 + lo) with h | h <;> omega)
    (by decide) s (fun c hc _ => hs c hc) t h

theorem wellFormed_parseQueryPiece {m : List (String × List String)} (hm : WellFormed m)
    {p : List Char} (hp : Bytes p) : WellFormed (parseQueryPiece m p) := by
  unfold parseQueryPiece
  split
  · exact hm
  · rcases hcut : cut '=' p with ⟨key, value, found⟩
    have hsub := cut_subset hcut
    dsimp only
    split
    · rename_i k v hk hv
      exact wellFormed_valuesAdd hm (unescape_bytes (fun c hc => hp c (hsub.1 hc)) hk)
        (unescape_bytes (fun c hc => hp c (hsub.2 hc)) hv)
    · exact hm

/-- `ParseQuery` reads a well-formed map from every byte string: its keys are distinct and its
keys and values are byte strings. -/
theorem wellFormed_parseQuery {s : List Char} (hs : Bytes s) : WellFormed (parseQuery s) := by
  have hpieces : ∀ p ∈ s.splitOn '&', Bytes p :=
    fun p hp c hc => hs c (subset_of_mem_splitOn hp hc)
  unfold parseQuery
  generalize s.splitOn '&' = pieces at hpieces
  suffices ∀ m, WellFormed m → WellFormed (pieces.foldl parseQueryPiece m) from
    this [] ⟨List.nodup_nil, by simp⟩
  induction pieces with
  | nil => exact fun m hm => hm
  | cons p ps ih =>
    intro m hm
    exact ih (fun q hq => hpieces q (List.mem_cons_of_mem _ hq)) _
      (wellFormed_parseQueryPiece hm (hpieces p (List.mem_cons_self _ _)))

end LeanDataway.NetUrl
