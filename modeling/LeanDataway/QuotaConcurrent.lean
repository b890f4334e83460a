import LeanDataway.Quota

/-! Concurrent `writePointData` calls on the shared quota flag. Each call that touches the flag
does so in atomic steps: a clear loads the flag and, when it loaded a positive value, stores 0 in
a second step; a quota answer adds its time in one step. A schedule interleaves the steps of any
number of handlers. Run serially, the handlers are the quota machine of a sequential run; run
concurrently, a store erases every quota answer that landed since its load, including those its
load did not see. What the code guarantees is that a quota answer survives every schedule in
which no store lands after it. -/

namespace LeanDataway

/-- Where a handler is: not started, a clear between its load and its store, or done. -/
inductive Pc
  | start
  | loaded
  | done
  deriving DecidableEq, Repr

/-- An atomic operation on the flag, by the handler with index `i`. -/
inductive Op
  | load (i : Nat) (v : BitVec 64)
  | store (i : Nat)
  | add (i : Nat) (now : BitVec 64)
  deriving DecidableEq, Repr

/-- The shared flag and where every handler is. -/
structure Conc where
  flag : BitVec 64
  pcs : List Pc
  deriving DecidableEq, Repr

def Conc.init (hs : List QuotaEvent) (flag : BitVec 64) : Conc := ⟨flag, hs.map fun _ => .start⟩

/-- One atomic step of handler `i`, with the operation it performs; a finished or unknown handler
does nothing. -/
def stepOf (hs : List QuotaEvent) (s : Conc) (i : Nat) : Option Op × Conc :=
  match hs[i]?, s.pcs[i]? with
  | some .clear, some .start =>
    (some (.load i s.flag), { s with pcs := s.pcs.set i (if BitVec.slt 0 s.flag then .loaded else .done) })
  | some .clear, some .loaded => (some (.store i), ⟨0, s.pcs.set i .done⟩)
  | some (.exceeded now), some .start => (some (.add i now), ⟨s.flag + now, s.pcs.set i .done⟩)
  | _, _ => (none, s)

/-- A schedule: the operations performed, in order, and the state after them. -/
def runSchedule (hs : List QuotaEvent) : Conc → List Nat → List Op × Conc
  | s, [] => ([], s)
  | s, i :: sched =>
    let r := runSchedule hs (stepOf hs s i).2 sched
    ((stepOf hs s i).1.toList ++ r.1, r.2)

def Op.apply (flag : BitVec 64) : Op → BitVec 64
  | .load _ _ => flag
  | .store _ => 0
  | .add _ now => flag + now

theorem stepOf_flag (hs : List QuotaEvent) (s : Conc) (i : Nat) :
    (stepOf hs s i).2.flag = (stepOf hs s i).1.toList.foldl Op.apply s.flag := by
  unfold stepOf
  split <;> rfl

/-- The flag is what the operations make of it, whatever the schedule. -/
theorem runSchedule_flag (hs : List QuotaEvent) (s : Conc) (sched : List Nat) :
    (runSchedule hs s sched).2.flag = (runSchedule hs s sched).1.foldl Op.apply s.flag := by
  induction sched generalizing s with
  | nil => rfl
  | cons i sched ih => simp only [runSchedule, List.foldl_append, ih, stepOf_flag]

def Op.isStore : Op → Bool
  | .store _ => true
  | _ => false

def Op.isLoad : Op → Bool
  | .load _ _ => true
  | _ => false

def Op.added : Op → Nat
  | .add _ now => now.toNat
  | _ => 0

theorem Op.apply_toNat_le (flag : BitVec 64) (op : Op) (h : flag.toNat + op.added < 2 ^ 64) :
    (op.apply flag).toNat ≤ flag.toNat + op.added := by
  cases op with
  | load => simp [Op.apply, Op.added]
  | store => simp [Op.apply]
  | add i now => exact Nat.mod_le _ _

theorem Op.apply_toNat_of_not_store (flag : BitVec 64) {op : Op} (hs : op.isStore = false)
    (h : flag.toNat + op.added < 2 ^ 64) : (op.apply flag).toNat = flag.toNat + op.added := by
  cases op with
  | load => simp [Op.apply, Op.added]
  | store => cases hs
  | add i now => exact Nat.mod_eq_of_lt h

/-- Without wrapping, the flag never exceeds what was there and what was added. -/
theorem foldl_apply_le (ops : List Op) (flag : BitVec 64)
    (h : flag.toNat + (ops.map Op.added).sum < 2 ^ 64) :
    (ops.foldl Op.apply flag).toNat ≤ flag.toNat + (ops.map Op.added).sum := by
  induction ops generalizing flag with
  | nil => simp
  | cons op ops ih =>
    simp only [List.foldl_cons, List.map_cons, List.sum_cons] at h ⊢
    have hop := op.apply_toNat_le flag (by omega)
    have := ih (op.apply flag) (by omega)
    omega

/-- Without a store and without wrapping, the operations add their times to the flag. -/
theorem foldl_apply_of_no_store (ops : List Op) (flag : BitVec 64)
    (hs : ∀ op ∈ ops, op.isStore = false) (h : flag.toNat + (ops.map Op.added).sum < 2 ^ 64) :
    (ops.foldl Op.apply flag).toNat = flag.toNat + (ops.map Op.added).sum := by
  induction ops generalizing flag with
  | nil => simp
  | cons op ops ih =>
    simp only [List.foldl_cons, List.map_cons, List.sum_cons, List.mem_cons,
      forall_eq_or_imp] at h hs ⊢
    rw [ih _ hs.2 (by rw [op.apply_toNat_of_not_store flag hs.1 (by omega)]; omega),
      op.apply_toNat_of_not_store flag hs.1 (by omega)]
    omega

/-- A quota answer survives unless a store lands after it: on any schedule from any state,
when a quota answer with a nonzero time is added and no store follows, the flag ends nonzero,
as long as the flag and the added times stay below `2^64`. -/
theorem runSchedule_quota_survives (hs : List QuotaEvent) (s : Conc) (sched : List Nat)
    {pre post : List Op} {j : Nat} {now : BitVec 64}
    (hops : (runSchedule hs s sched).1 = pre ++ .add j now :: post) (hnow : 0 < now.toNat)
    (hpost : ∀ op ∈ post, op.isStore = false)
    (hbound : s.flag.toNat + ((runSchedule hs s sched).1.map Op.added).sum < 2 ^ 64) :
    (runSchedule hs s sched).2.flag ≠ 0 := by
  rw [hops] at hbound
  simp only [List.map_append, List.map_cons, List.sum_append, List.sum_cons, Op.added] at hbound
  have hpre := foldl_apply_le pre s.flag (by omega)
  have hadd : (Op.apply (pre.foldl Op.apply s.flag) (.add j now)).toNat =
      (pre.foldl Op.apply s.flag).toNat + now.toNat :=
    @Op.apply_toNat_of_not_store _ (.add j now) rfl (by simp only [Op.added]; omega)
  have hend := foldl_apply_of_no_store post _ hpost (by rw [hadd]; omega)
  rw [runSchedule_flag, hops, List.foldl_append, List.foldl_cons]
  intro h0
  rw [h0] at hend
  simp at hend
  omega

def quotaAroundClear : List QuotaEvent := [.exceeded 1700000000, .clear, .exceeded 1700000060]

theorem runSchedule_quota_survives_example :
    (runSchedule quotaAroundClear (Conc.init quotaAroundClear 0) [2, 0, 1]).2.flag ≠ 0 :=
  @runSchedule_quota_survives quotaAroundClear _ [2, 0, 1]
    [] [.add 0 1700000000, .load 1 3400000060] 2 1700000060
    (by decide) (by decide) (by decide) (by decide)

theorem runSchedule_store_erases_unseen_quota :
    runSchedule quotaAroundClear (Conc.init quotaAroundClear 0) [0, 1, 2, 1] =
      ([.add 0 1700000000, .load 1 1700000000, .add 2 1700000060, .store 1],
        ⟨0, [.done, .done, .done]⟩) := by
  decide

/-! ### Serial schedules -/

theorem runSchedule_append (hs : List QuotaEvent) (s : Conc) (a b : List Nat) :
    (runSchedule hs s (a ++ b)).2 = (runSchedule hs (runSchedule hs s a).2 b).2 := by
  induction a generalizing s with
  | nil => rfl
  | cons i a ih => exact ih _

/-- A handler run on its own from its start: the quota machine's step. -/
theorem runSchedule_handler {hs : List QuotaEvent} {s : Conc} {i : Nat} {e : QuotaEvent}
    (he : hs[i]? = some e) (hpc : s.pcs[i]? = some .start) :
    (runSchedule hs s [i, i]).2 = ⟨QuotaEvent.step s.flag e, s.pcs.set i .done⟩ := by
  have hi : i < s.pcs.length := (List.getElem?_eq_some_iff.mp hpc).1
  cases e with
  | clear =>
    by_cases hp : (0#64).slt s.flag = true
    · simp [runSchedule, stepOf, he, hpc, hp, hi, QuotaEvent.step, List.set_set]
    · simp [runSchedule, stepOf, he, hpc, hp, hi, QuotaEvent.step]
  | exceeded now => simp [runSchedule, stepOf, he, hpc, hi, QuotaEvent.step]

theorem runSchedule_serial_from (hs : List QuotaEvent) (m k : Nat) (s : Conc)
    (hk : k + m = hs.length) (hstart : ∀ i, k ≤ i → i < hs.length → s.pcs[i]? = some .start) :
    (runSchedule hs s ((List.range' k m).flatMap fun i => [i, i])).2.flag =
      (hs.drop k).foldl QuotaEvent.step s.flag := by
  induction m generalizing k s with
  | zero => simp [show hs.drop k = [] from List.drop_eq_nil_of_le (by omega), runSchedule]
  | succ m ih =>
    have hklt : k < hs.length := by omega
    rw [List.range'_succ, List.flatMap_cons, runSchedule_append,
      runSchedule_handler (List.getElem?_eq_getElem hklt) (hstart k le_rfl hklt),
      ih (k + 1) _ (by omega), List.drop_eq_getElem_cons hklt, List.foldl_cons]
    intro i hi hlt
    rw [List.getElem?_set_ne (by omega)]
    exact hstart i (by omega) hlt

/-- **Serial schedules are sequential runs**: the handlers of a run of calls, each run to its end
before the next starts, leave the flag that the run of calls leaves. -/
theorem runSchedule_serial {Point : Type} (K : Ctx Point) (calls : List (Call Point))
    (flag : BitVec 64) :
    (runSchedule (calls.filterMap (Call.quotaEvent K))
        (Conc.init (calls.filterMap (Call.quotaEvent K)) flag)
        ((List.range (calls.filterMap (Call.quotaEvent K)).length).flatMap fun i => [i, i])).2.flag =
      runFlag K flag calls := by
  rw [runFlag_eq, List.range_eq_range', runSchedule_serial_from _ _ 0 _ (by simp)]
  · rfl
  · intro i _ hi
    simp [Conc.init, hi]

end LeanDataway
