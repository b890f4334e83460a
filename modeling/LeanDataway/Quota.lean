import LeanDataway.WriteRequest

/-! The quota flag `metrics.BeyondUsage` over runs of `writePointData` calls. A call touches the
flag only when its answer reaches the status switch: a 2xx answer to a write URL clears a
positive flag, and a 403 answer naming `beyondDataUsage` adds the current time to it with
`atomic.AddInt64`. Over a run the flag is therefore the wrapping sum of the times of the quota
answers since the last clear, not the time of the first of them. -/

namespace LeanDataway

open NetUrl NetHttp

/-- What an answer does to the quota flag: `clear` is a 2xx answer to a URL containing
`/v1/write/`, `exceeded now` a 403 answer whose body contains `beyondDataUsage`, at Unix time
`now`. -/
inductive QuotaEvent
  | clear
  | exceeded (now : BitVec 64)
  deriving DecidableEq, Repr

/-- The flag after one quota event: a clear resets only a positive flag. -/
def QuotaEvent.step (flag : BitVec 64) : QuotaEvent → BitVec 64
  | .clear => if BitVec.slt 0 flag then 0 else flag
  | .exceeded now => flag + now

/-- The quota event of an answer, if it is one. -/
def quotaEventOf (requrl : String) (statusCode : Int) (body : String) (now : BitVec 64) :
    Option QuotaEvent :=
  if statusClass statusCode = 2 then
    if containsText requrl "/v1/write/" then some .clear else none
  else if statusCode = statusForbidden ∧ containsText body "beyondDataUsage" then
    some (.exceeded now)
  else none

/-- The status switch changes the flag exactly by the answer's quota event. -/
theorem beyondUsageStep_eq (requrl : String) (statusCode : Int) (body : String)
    (now flag : BitVec 64) :
    beyondUsageStep requrl statusCode body now flag =
      (quotaEventOf requrl statusCode body now).elim flag (QuotaEvent.step flag) := by
  have h403 : statusClass statusForbidden = 4 := by decide
  unfold beyondUsageStep quotaEventOf
  by_cases h2 : statusClass statusCode = 2
  · by_cases hw : containsText requrl "/v1/write/" <;> simp [h2, hw, QuotaEvent.step]
  · by_cases hq : statusCode = statusForbidden ∧ containsText body "beyondDataUsage"
    · obtain ⟨rfl, hb⟩ := hq
      simp [h403, hb, QuotaEvent.step]
    · have hq' : (decide (statusCode = statusForbidden) &&
          containsText body "beyondDataUsage") = false := by simpa using hq
      by_cases h4 : statusClass statusCode = 4 <;> simp [h2, h4, hq, hq']

/-- One `writePointData` call: the endpoint, the writer, the body and the network's answer. -/
structure Call (Point : Type) where
  ep : EndPoint
  w : Writer Point
  b : Body
  x : Exchange

section

variable {Point : Type} (K : Ctx Point)

/-- The quota event of a call: that of its answer, when the call reaches the status switch. -/
def Call.quotaEvent (c : Call Point) : Option QuotaEvent :=
  match resolveURL c.ep c.w with
  | .error _ => none
  | .ok (requrl, _) =>
    match buildRequest K requrl c.w c.b, c.x.response with
    | .ok _, .ok resp =>
      match resp.body with
      | .ok body => quotaEventOf requrl resp.statusCode body c.x.now
      | .error _ => none
    | _, _ => none

/-- The quota flag after a run of calls, one after the other. -/
def runFlag (flag : BitVec 64) (calls : List (Call Point)) : BitVec 64 :=
  calls.foldl (fun flag c => (writePointData K c.ep c.b c.w c.x flag).beyondUsage) flag

variable {K}

theorem writePointData_beyondUsage (c : Call Point) (flag : BitVec 64) :
    (writePointData K c.ep c.b c.w c.x flag).beyondUsage =
      (c.quotaEvent K).elim flag (QuotaEvent.step flag) := by
  cases hr : resolveURL c.ep c.w with
  | error e => simp [writePointData_of_resolveURL_error hr, Call.quotaEvent, hr]
  | ok r =>
    obtain ⟨requrl, dialTesting⟩ := r
    rw [writePointData_of_resolveURL_ok hr]
    cases hb : buildRequest K requrl c.w c.b with
    | error e => simp [Call.quotaEvent, hr, hb, postAndClassify]
    | ok req =>
      cases hx : c.x.response with
      | error e => simp [Call.quotaEvent, hr, hb, hx, postAndClassify]
      | ok resp =>
        cases hbody : resp.body with
        | error e => simp [Call.quotaEvent, hr, hb, hx, hbody, postAndClassify]
        | ok body =>
          simp [Call.quotaEvent, hr, hb, hx, hbody, postAndClassify, beyondUsageStep_eq]

/-- A run of calls is a run of the quota machine on the quota events of its calls. -/
theorem runFlag_eq (flag : BitVec 64) (calls : List (Call Point)) :
    runFlag K flag calls = (calls.filterMap (Call.quotaEvent K)).foldl QuotaEvent.step flag := by
  induction calls generalizing flag with
  | nil => rfl
  | cons c calls ih =>
    simp only [runFlag, List.foldl_cons, List.filterMap_cons] at ih ⊢
    rw [ih, writePointData_beyondUsage]
    cases c.quotaEvent K <;> rfl

end

/-! ### The flag over a run -/

/-- The times of the quota events since the last clear, in order. -/
def QuotaEvent.pending (acc : List Nat) : QuotaEvent → List Nat
  | .clear => []
  | .exceeded now => acc ++ [now.toNat]

def quotaTimes (evs : List QuotaEvent) : List Nat :=
  evs.filterMap fun
    | .clear => none
    | .exceeded now => some now.toNat

theorem slt_zero_iff {flag : BitVec 64} (h : flag.toNat < 2 ^ 63) :
    BitVec.slt 0 flag = true ↔ 0 < flag.toNat := by
  have hflag : flag.toInt = flag.toNat := by
    rw [BitVec.toInt_eq_toNat_cond, if_pos (by omega)]
  simp [BitVec.slt, hflag]

/-- The invariant of a run: the flag holds the sum of the pending times, all of them nonzero. -/
def FlagSums (flag : BitVec 64) (acc : List Nat) : Prop :=
  flag.toNat = acc.sum ∧ ∀ n ∈ acc, 0 < n

/-- One quota event keeps the invariant while the sum stays below `2^63`. -/
theorem FlagSums.step {flag : BitVec 64} {acc : List Nat} (h : FlagSums flag acc) (e : QuotaEvent)
    (hpos : ∀ n ∈ quotaTimes [e], 0 < n) (hsum : acc.sum + (quotaTimes [e]).sum < 2 ^ 63) :
    FlagSums (QuotaEvent.step flag e) (QuotaEvent.pending acc e) := by
  obtain ⟨hflag, hacc⟩ := h
  cases e with
  | clear =>
    refine ⟨?_, by simp [QuotaEvent.pending]⟩
    simp only [quotaTimes, List.filterMap_cons, List.filterMap_nil, List.sum_nil,
      Nat.add_zero] at hsum
    by_cases hp : BitVec.slt 0 flag = true
    · rw [QuotaEvent.step, if_pos hp]
      rfl
    · have hz : flag.toNat = 0 := by
        rw [slt_zero_iff (by omega)] at hp
        omega
      rw [QuotaEvent.step, if_neg hp, hz]
      rfl
  | exceeded now =>
    simp only [quotaTimes, List.filterMap_cons, List.filterMap_nil, List.sum_cons, List.sum_nil,
      Nat.add_zero, List.mem_singleton, forall_eq] at hpos hsum
    refine ⟨?_, ?_⟩
    · simp only [QuotaEvent.step, QuotaEvent.pending, List.sum_append, List.sum_singleton,
        BitVec.toNat_add, hflag]
      omega
    · simp only [QuotaEvent.pending, List.mem_append, List.mem_singleton]
      rintro n (hn | rfl)
      exacts [hacc n hn, hpos]

theorem FlagSums.run {flag : BitVec 64} {acc : List Nat} (h : FlagSums flag acc)
    (evs : List QuotaEvent) (hpos : ∀ n ∈ quotaTimes evs, 0 < n)
    (hsum : acc.sum + (quotaTimes evs).sum < 2 ^ 63) :
    FlagSums (evs.foldl QuotaEvent.step flag) (evs.foldl QuotaEvent.pending acc) := by
  induction evs generalizing flag acc with
  | nil => exact h
  | cons e evs ih =>
    have hsplit : quotaTimes (e :: evs) = quotaTimes [e] ++ quotaTimes evs := by
      cases e <;> rfl
    rw [hsplit] at hpos hsum
    simp only [List.sum_append] at hsum
    have hstep := h.step e (fun n hn => hpos n (List.mem_append_left _ hn)) (by omega)
    have hpend : (QuotaEvent.pending acc e).sum ≤ acc.sum + (quotaTimes [e]).sum := by
      cases e <;> simp [QuotaEvent.pending, quotaTimes]
    exact ih hstep (fun n hn => hpos n (List.mem_append_right _ hn)) (by omega)

/-- **The flag is the sum of the quota times since the last clear**: over a run of calls whose
quota times are nonzero and add up to less than `2^63`, the flag goes from 0 to the sum of the
times of the quota answers after the last clear, and is 0 when there is none. -/
theorem runFlag_toNat {Point : Type} (K : Ctx Point) (calls : List (Call Point))
    (hpos : ∀ n ∈ quotaTimes (calls.filterMap (Call.quotaEvent K)), 0 < n)
    (hsum : (quotaTimes (calls.filterMap (Call.quotaEvent K))).sum < 2 ^ 63) :
    (runFlag K 0 calls).toNat =
      ((calls.filterMap (Call.quotaEvent K)).foldl QuotaEvent.pending []).sum := by
  rw [runFlag_eq]
  exact (FlagSums.run ⟨by simp, by simp⟩ _ hpos (by simpa using hsum)).1

def overQuota (now : BitVec 64) : Exchange := ⟨.ok ⟨403, .ok "beyondDataUsage"⟩, now⟩

theorem runFlag_toNat_example :
    (runFlag exampleCtx 0
        [⟨gwEndpoint, loggingWriter, pointBody, overQuota 1700000000⟩,
          ⟨gwEndpoint, loggingWriter, pointBody, accepted⟩,
          ⟨gwEndpoint, loggingWriter, pointBody, overQuota 1700000060⟩]).toNat = 1700000060 :=
  (runFlag_toNat exampleCtx _ (by decide) (by decide)).trans (by decide)

theorem runFlag_two_quota_answers_add :
    runFlag exampleCtx 0
        [⟨gwEndpoint, loggingWriter, pointBody, overQuota 1700000000⟩,
          ⟨gwEndpoint, loggingWriter, pointBody, overQuota 1700000060⟩] = 3400000060 := by
  decide

end LeanDataway
