import LeanDataway.Write

/-! When `writeBody` writes a body to the disk cache. `writeBody` looks only at the error
`writePointData` returns: a 4xx answer is dropped, and any other error, a transport failure, a 5xx
answer, a route that does not resolve or a body that could not be read, is cached by the
writer's policy. This file proves the policy on transient failures, that an answered body is
never cached once its answer was read, and what happens to a body whose route does not resolve
or whose answer could not be read. -/

namespace LeanDataway

open NetUrl NetHttp

section

variable {Point : Type} {K : Ctx Point}

theorem statusResult_of_two {c : Int} (h : statusClass c = 2) : statusResult c = .ok () := by
  simp [statusResult, h]

theorem statusResult_of_four {c : Int} (h : statusClass c = 4) :
    statusResult c = .error .writePoints4XX := by
  simp [statusResult, h]

theorem statusResult_of_other {c : Int} (h2 : statusClass c ≠ 2) (h4 : statusClass c ≠ 4) :
    statusResult c = .error .internal := by
  simp [statusResult, h2, h4]

theorem resolveURL_error_ne_4XX {ep : EndPoint} {w : Writer Point} {e : WriteError}
    (h : resolveURL ep w = .error e) : e ≠ .writePoints4XX := by
  unfold resolveURL at h
  split at h
  · cases h
  · split at h
    · split at h <;> cases h; simp
    · cases h; simp

/-- Once its request was handed to the client, a call's result is decided by the answer. -/
theorem writePointData_result_of_sent {ep : EndPoint} {b : Body} {w : Writer Point}
    {x : Exchange} {flag : BitVec 64} {req : Request}
    (h : .send req ∈ (writePointData K ep b w x flag).events) :
    (writePointData K ep b w x flag).result =
      match x.response with
      | .error e => .error (.send e)
      | .ok resp =>
        match resp.body with
        | .error e => .error (.readBody e)
        | .ok _ => statusResult resp.statusCode := by
  obtain ⟨requrl, dialTesting, hr, hb⟩ := mem_writePointData_send h
  rw [writePointData_of_resolveURL_ok hr]
  exact postAndClassify_result hb x flag

theorem mem_writeBody_send {ep : EndPoint} {w : Writer Point} {b : Body} {x : Exchange}
    {flag : BitVec 64} {req : Request} (h : .send req ∈ (writeBody K ep w b x flag).events) :
    .send req ∈ (writePointData K ep b { w with gzip := b.gzon } x flag).events := by
  rw [writeBody_eq] at h
  rcases List.mem_append.mp h with h | h
  · exact h
  · split at h
    · cases h
    · unfold cacheOnFailure doCache at h
      split at h
      · cases h
      · split at h
        · cases h
        · split at h
          · simp at h
          · split at h <;> simp at h

theorem exists_send_of_sent {l : List Event} (h : l.filterMap Event.sent? ≠ []) :
    ∃ req, .send req ∈ l := by
  obtain ⟨req, hreq⟩ := List.exists_mem_of_ne_nil _ h
  obtain ⟨e, he, hsome⟩ := List.mem_filterMap.mp hreq
  cases e <;> simp at hsome
  exact ⟨req, hsome ▸ he⟩

theorem cacheOnFailure_puts_of_none {w : Writer Point} (hfc : w.fc = none) (b : Body)
    (err : WriteError) : (cacheOnFailure K w b err).filterMap Event.put? = [] := by
  unfold cacheOnFailure
  split
  · rfl
  · simp [hfc]

/-- **The cache policy**: a failure other than a 4xx answer puts the body's record into the
writer's cache once, unless the writer does not cache everything and its category is dropped. -/
theorem cacheOnFailure_puts {w : Writer Point} {fc : FailCache} (hfc : w.fc = some fc) (b : Body)
    {err : WriteError} (herr : err ≠ .writePoints4XX) :
    (cacheOnFailure K w b err).filterMap Event.put? =
      if w.cacheAll || !(uncachedCategories K).contains w.category then
        [(fc, K.marshal ⟨int32 (K.catURL w.category), int32 b.payload, b.buf⟩)]
      else [] := by
  have : (err == .writePoints4XX) = false := by simpa using herr
  by_cases hall : w.cacheAll <;> by_cases hcat : w.category ∈ uncachedCategories K <;>
    simp [cacheOnFailure, doCache, this, hfc, hall, hcat]

theorem writeBody_puts (ep : EndPoint) (w : Writer Point) (b : Body) (x : Exchange)
    (flag : BitVec 64) :
    (writeBody K ep w b x flag).events.filterMap Event.put? =
      match (writePointData K ep b { w with gzip := b.gzon } x flag).result with
      | .ok () => []
      | .error err => (cacheOnFailure K { w with gzip := b.gzon } b err).filterMap Event.put? := by
  rw [writeBody_eq]
  simp only [List.filterMap_append, writePointData_puts, List.nil_append]
  cases (writePointData K ep b { w with gzip := b.gzon } x flag).result <;> rfl

/-- A transient failure: no answer, or an answer whose body was read and whose status is neither
2xx nor 4xx. -/
def Transient (x : Exchange) : Prop :=
  (∃ e, x.response = .error e) ∨
    ∃ resp body, x.response = .ok resp ∧ resp.body = .ok body ∧
      statusClass resp.statusCode ≠ 2 ∧ statusClass resp.statusCode ≠ 4

theorem writeBody_cache_or_drop (ep : EndPoint) (w : Writer Point) (b : Body) (x : Exchange)
    (flag : BitVec 64) :
    (w.fc = none → (writeBody K ep w b x flag).events.filterMap Event.put? = []) ∧
      ∀ fc, w.fc = some fc → (∃ req, .send req ∈ (writeBody K ep w b x flag).events) →
        Transient x →
        (writeBody K ep w b x flag).events.filterMap Event.put? =
          if w.cacheAll || !(uncachedCategories K).contains w.category then
            [(fc, K.marshal ⟨int32 (K.catURL w.category), int32 b.payload, b.buf⟩)]
          else [] := by
  refine ⟨fun hfc => ?_, fun fc hfc ⟨req, hsent⟩ htransient => ?_⟩
  · rw [writeBody_puts]
    split
    · rfl
    · exact cacheOnFailure_puts_of_none hfc b _
  · have hres := writePointData_result_of_sent (mem_writeBody_send hsent)
    have herr : ∃ err, (writePointData K ep b { w with gzip := b.gzon } x flag).result = .error err ∧
        err ≠ .writePoints4XX := by
      rcases htransient with ⟨e, he⟩ | ⟨resp, body, hresp, hbody, h2, h4⟩
      · exact ⟨.send e, by simp [hres, he], by simp⟩
      · exact ⟨.internal, by simp [hres, hresp, hbody, statusResult_of_other h2 h4], by simp⟩
    obtain ⟨err, hres', hne⟩ := herr
    rw [writeBody_puts, hres']
    exact cacheOnFailure_puts hfc b hne

/-- A writer of `logging` points with a cache and the default policy. -/
def loggingWriter : Writer (List UInt8) :=
  ⟨"/v1/write/logging", [[1]], false, false, some ⟨0⟩, "", false⟩

def pointBody : Body := ⟨[1], 1, 0, false⟩

def unavailable : Exchange := ⟨.ok ⟨503, .ok "service unavailable"⟩, 1700000000⟩

theorem writeBody_cache_or_drop_example :
    Transient unavailable ∧
      (writeBody exampleCtx gwEndpoint loggingWriter pointBody unavailable 0).events.filterMap
        Event.put? = [(⟨0⟩, [1])] :=
  have ht : Transient unavailable := .inr ⟨_, _, rfl, rfl, by decide, by decide⟩
  ⟨ht, (writeBody_cache_or_drop gwEndpoint loggingWriter pointBody unavailable 0).2 ⟨0⟩ rfl
    (exists_send_of_sent (by decide)) ht⟩

/-- A body whose answer was read is never cached on a 2xx or 4xx status: the call returns no error
or `errWritePoints4XX`. -/
theorem writeBody_no_put_of_read {ep : EndPoint} {w : Writer Point} {b : Body} {x : Exchange}
    {flag : BitVec 64} {resp : Response} {body : String}
    (hsent : ∃ req, .send req ∈ (writeBody K ep w b x flag).events)
    (hresp : x.response = .ok resp) (hbody : resp.body = .ok body)
    (hclass : statusClass resp.statusCode = 2 ∨ statusClass resp.statusCode = 4) :
    (writeBody K ep w b x flag).events.filterMap Event.put? = [] := by
  obtain ⟨req, hsent⟩ := hsent
  have hres := writePointData_result_of_sent (mem_writeBody_send hsent)
  rw [writeBody_puts, hres]
  rcases hclass with h | h
  · simp [hresp, hbody, statusResult_of_two h]
  · simp [hresp, hbody, statusResult_of_four h, cacheOnFailure]

def forbidden : Exchange := ⟨.ok ⟨403, .ok "rejected"⟩, 1700000000⟩

theorem writeBody_no_put_of_read_example :
    (writeBody exampleCtx gwEndpoint loggingWriter pointBody forbidden 0).events.filterMap
      Event.put? = [] :=
  writeBody_no_put_of_read (exists_send_of_sent (by decide)) rfl rfl (.inr (by decide))

def forbiddenUnread : Exchange := ⟨.ok ⟨403, .error "connection reset by peer"⟩, 1700000000⟩

theorem writeBody_caches_answered_unread :
    ((writeBody exampleCtx gwEndpoint loggingWriter pointBody forbiddenUnread 0).events.filterMap
        Event.sent?).length = 1 ∧
      (writeBody exampleCtx gwEndpoint loggingWriter pointBody forbiddenUnread 0).events.filterMap
        Event.put? = [(⟨0⟩, [1])] := by
  decide

theorem writeBody_of_resolveURL_error {ep : EndPoint} {w : Writer Point} {e : WriteError}
    (h : resolveURL ep w = .error e) (b : Body) (x : Exchange) (flag : BitVec 64) :
    (writeBody K ep w b x flag).events = cacheOnFailure K { w with gzip := b.gzon } b e := by
  have h' : resolveURL ep { w with gzip := b.gzon } = .error e := h
  simp [writeBody_eq, writePointData_of_resolveURL_error h']

/-- The failure branch does nothing but write to the cache. -/
theorem cacheOnFailure_filterMap {α : Type} {p : Event → Option α}
    (hp : ∀ fc data, p (.put fc data) = none) (w : Writer Point) (b : Body) (err : WriteError) :
    (cacheOnFailure K w b err).filterMap p = [] := by
  unfold cacheOnFailure doCache
  split
  · rfl
  split
  · rfl
  split
  · simp [hp]
  split <;> simp [hp]

theorem writePoints_unroutable (ep : EndPoint) (w : Writer Point) (xs : Nat → Exchange)
    (flag : BitVec 64) (bodies : List Body) (hroute : ep.categoryURL.lookup w.category = none)
    (hdyn : w.dynamicURL = "" ∨ ∃ e, parseRequestURI w.dynamicURL = .error e)
    (hbodies : K.buildBody w.pts K.maxKodoBody = .ok bodies) :
    (writePoints K ep w xs flag).result.1 = .ok () ∧
      (writePoints K ep w xs flag).events.filterMap Event.sent? = [] ∧
      (writePoints K ep w xs flag).events.filterMap Event.put? =
        match w.fc with
        | none => []
        | some fc =>
          if w.cacheAll || !(uncachedCategories K).contains w.category then
            bodies.map fun b => (fc, K.marshal ⟨int32 (K.catURL w.category), int32 b.payload, b.buf⟩)
          else [] := by
  obtain ⟨e, he⟩ := resolveURL_error hroute hdyn
  have hne := resolveURL_error_ne_4XX he
  obtain ⟨per, hper, hall⟩ := writeBodies_events (K := K) ep w bodies xs flag
  have hevs : List.Forall₂ (fun b evs => evs = cacheOnFailure K { w with gzip := b.gzon } b e)
      bodies per :=
    hall.imp fun b _ ⟨x, f, h⟩ => h.trans (writeBody_of_resolveURL_error he b x f)
  simp only [writePoints, hbodies, hper]
  refine ⟨trivial, ?_, ?_⟩
  · rw [filterMap_flatten_of_forall₂ (f := fun _ => [])
      (hevs.imp fun b _ h => h ▸ cacheOnFailure_filterMap (fun _ _ => rfl) _ b e)]
    simp
  · cases hfc : w.fc with
    | none =>
      rw [filterMap_flatten_of_forall₂ (f := fun _ => [])
        (hevs.imp fun b _ h => h ▸ cacheOnFailure_puts_of_none hfc b e)]
      simp
    | some fc =>
      rw [filterMap_flatten_of_forall₂ (hevs.imp fun b _ h => h ▸ cacheOnFailure_puts hfc b hne)]
      split <;> simp [List.map_eq_flatMap]

/-- A writer of `tracing` points, a category the endpoint has no URL for, with no dynamic URL. -/
def tracingWriter : Writer (List UInt8) :=
  ⟨"/v1/write/tracing", [[1]], false, false, some ⟨0⟩, "", false⟩

theorem writePoints_unroutable_example :
    gwEndpoint.categoryURL.lookup tracingWriter.category = none ∧
      (tracingWriter.dynamicURL = "" ∨ ∃ e, parseRequestURI tracingWriter.dynamicURL = .error e) ∧
      exampleCtx.buildBody tracingWriter.pts exampleCtx.maxKodoBody = .ok [pointBody] ∧
      (writePoints exampleCtx gwEndpoint tracingWriter (fun _ => forbiddenUnread) 0).result.1 =
        .ok () :=
  ⟨by decide, .inl rfl, rfl, (writePoints_unroutable gwEndpoint tracingWriter _ 0 [pointBody]
    (by decide) (.inl rfl) rfl).1⟩

theorem writePoints_unroutable_returns_nil_and_caches :
    (writePoints exampleCtx gwEndpoint tracingWriter (fun _ => forbiddenUnread) 0).result.1 =
        .ok () ∧
      (writePoints exampleCtx gwEndpoint tracingWriter (fun _ => forbiddenUnread) 0).events.filterMap
        Event.put? = [(⟨0⟩, [1])] := by
  decide

end

end LeanDataway
