import LeanDataway.Endpoint

/-! The write path of `endpoint.go`. `writePointData` resolves a body's URL, posts it and
classifies the answer, updating the quota flag `metrics.BeyondUsage`; `writeBody` decides on a
failure whether the body goes to the writer's disk cache; `writePoints` runs `writeBody` over the
bodies that `buildBody` makes of a writer's points. A call is a function of the network's answer
(an `Exchange`) and of the flag before it, and returns what it did that others observe: the
requests handed to the retrying client, the counters, the dial-testing reports and the cache
writes, in order, with the flag after it. The writer, the body, the cache record and the
collaborators outside `src/` (`Ctx`) are taken from how `endpoint.go` uses them. -/

namespace LeanDataway

open NetUrl NetHttp

/-- One HTTP body (`body`): its bytes, its number of points, its payload encoding and whether it
is gzipped. -/
structure Body where
  buf : List UInt8
  npts : Nat
  payload : Int
  gzon : Bool
  deriving DecidableEq, Repr

/-- The record a failed body is cached as (`CacheData`). -/
structure CacheData where
  category : Int
  payloadType : Int
  payload : List UInt8
  deriving DecidableEq, Repr

/-- The disk cache a writer puts failed bodies into (`w.fc`). -/
structure FailCache where
  id : Nat
  deriving DecidableEq, Repr

/-- A batch of points to send (`writer`). -/
structure Writer (Point : Type) where
  category : String
  pts : List Point
  gzip : Bool
  cacheAll : Bool
  fc : Option FailCache
  dynamicURL : String
  isSinker : Bool

/-- The collaborators of `endpoint.go` outside `src/`: the package's `buildBody`, `MaxKodoBody`
and `ExtraHeaders` (its entries in the order of one range loop), the `datakit` category paths,
`point.CatURL` with `Category.String` and `point.DynamicDWCategory`, `pb.Marshal` of a
`CacheData`, which cannot fail on a message of integers and bytes, and `http.StatusText`. -/
structure Ctx (Point : Type) where
  buildBody : List Point → Nat → Except String (List Body)
  maxKodoBody : Nat
  extraHeaders : List (String × String)
  metric : String
  metricDeprecated : String
  object : String
  customObject : String
  dynamicDatawayCategory : String
  logFilter : String
  datakitPull : String
  catURL : String → Int
  catString : Int → String
  dynamicDWCategory : Int
  marshal : CacheData → List UInt8
  statusText : Int → String

def int32 (x : Int) : Int := (x + 2 ^ 31) % 2 ^ 32 - 2 ^ 31

/-- What the network and the clock answer to one request: the outcome of `sendReq` and of
reading the body, and `time.Now().Unix()` when the answer is classified. -/
structure Exchange where
  response : Except TransportError Response
  now : BitVec 64

/-- What the write path does that others observe: `send` is `ep.sendReq(req)`, `metric` the
deferred counters (bytes, points and sink points), `dialTest` is `updateDTFailInfo(url, ok)` and
`put` is `w.fc.Put(data)`. -/
inductive Event
  | send (req : Request)
  | metric (cat codeStr : String) (bytes npts : Nat) (sink : Bool)
  | dialTest (url : String) (ok : Bool)
  | put (fc : FailCache) (data : List UInt8)
  deriving DecidableEq, Repr

@[simp] def Event.sent? : Event → Option Request
  | .send req => some req
  | _ => none

@[simp] def Event.put? : Event → Option (FailCache × List UInt8)
  | .put fc data => some (fc, data)
  | _ => none

@[simp] def Event.dialTest? : Event → Option (String × Bool)
  | .dialTest url ok => some (url, ok)
  | _ => none

@[simp] def Event.metric? : Event → Option (String × String × Nat × Nat × Bool)
  | .metric cat codeStr bytes npts sink => some (cat, codeStr, bytes, npts, sink)
  | _ => none

inductive WriteError
  | parseDynamicURL (e : String)
  | invalidURL (dynamicURL : String)
  | newRequest (e : String)
  | send (e : TransportError)
  | readBody (e : String)
  | writePoints4XX
  | internal
  deriving DecidableEq, Repr

/-- One call of the write path: its result, the events it caused in order, and
`metrics.BeyondUsage` after it. -/
structure Effect (α : Type) where
  result : α
  events : List Event
  beyondUsage : BitVec 64

section

variable {Point : Type} (K : Ctx Point)

/-- The route of `writePointData`: the URL of the writer's category, or else its dynamic URL
when that parses, which also arms the dial-testing report. -/
def resolveURL (ep : EndPoint) (w : Writer Point) : Except WriteError (String × Bool) :=
  match ep.categoryURL.lookup w.category with
  | some requrl => .ok (requrl, false)
  | none =>
    if w.dynamicURL != "" then
      match parseRequestURI w.dynamicURL with
      | .error e => .error (.parseDynamicURL e)
      | .ok _ => .ok (w.dynamicURL, true)
    else .error (.invalidURL w.dynamicURL)

/-- `http.NewRequest` and the headers: gzip first, then every extra header. -/
def buildRequest (requrl : String) (w : Writer Point) (b : Body) : Except String Request :=
  match newRequest "POST" requrl b.buf with
  | .error e => .error e
  | .ok req =>
    let req := if w.gzip then { req with header := req.header.set "Content-Encoding" "gzip" } else req
    .ok (K.extraHeaders.foldl (fun req kv => { req with header := req.header.set kv.1 kv.2 }) req)

def sendErrorCodeStr (e : TransportError) : String :=
  match e.unwrapped with
  | .urlError true => K.statusText statusRequestTimeout
  | .none =>
    if containsText e.message "giving up after" then K.statusText statusInternalServerError
    else "unknown"
  | _ => "unknown"

/-- The quota flag after the status switch: a 2xx answer to a write URL clears a positive flag,
a 403 answer whose body names `beyondDataUsage` adds the time to it. -/
def beyondUsageStep (requrl : String) (statusCode : Int) (body : String) (now flag : BitVec 64) :
    BitVec 64 :=
  if statusClass statusCode = 2 then
    if containsText requrl "/v1/write/" && BitVec.slt 0 flag then 0 else flag
  else if statusClass statusCode = 4 then
    if statusCode = statusForbidden && containsText body "beyondDataUsage" then flag + now else flag
  else flag

def statusResult (statusCode : Int) : Except WriteError Unit :=
  if statusClass statusCode = 2 then .ok ()
  else if statusClass statusCode = 4 then .error .writePoints4XX
  else .error .internal

/-- `writePointData` from the request on: build and send the POST, read the answer, classify it.
Also returns `httpCodeStr`, the status label of the deferred counters. -/
def postAndClassify (requrl : String) (w : Writer Point) (b : Body) (x : Exchange)
    (flag : BitVec 64) : String × Effect (Except WriteError Unit) :=
  match buildRequest K requrl w b with
  | .error e => ("unknown", ⟨.error (.newRequest e), [], flag⟩)
  | .ok req =>
    match x.response with
    | .error e => (sendErrorCodeStr K e, ⟨.error (.send e), [.send req], flag⟩)
    | .ok resp =>
      match resp.body with
      | .error e => ("unknown", ⟨.error (.readBody e), [.send req], flag⟩)
      | .ok body => (K.statusText resp.statusCode,
          ⟨statusResult resp.statusCode, [.send req],
            beyondUsageStep requrl resp.statusCode body x.now flag⟩)

def metricCategory (w : Writer Point) : String :=
  if w.category == K.dynamicDatawayCategory then K.catString K.dynamicDWCategory
  else K.catString (K.catURL w.category)

/-- `writePointData`. The deferred functions run when it returns: the counters, then the
dial-testing report, which reads `httpCode`, a variable the source declares and never assigns. -/
def writePointData (ep : EndPoint) (b : Body) (w : Writer Point) (x : Exchange)
    (flag : BitVec 64) : Effect (Except WriteError Unit) :=
  match resolveURL ep w with
  | .error e => ⟨.error e, [], flag⟩
  | .ok (requrl, dialTesting) =>
    let httpCode : Int := 0
    match postAndClassify K requrl w b x flag with
    | (httpCodeStr, r) =>
      { r with
        events := r.events ++
          .metric (metricCategory K w) httpCodeStr b.buf.length b.npts w.isSinker ::
            if dialTesting then [.dialTest requrl (statusClass httpCode == 2)] else [] }

/-- `doCache`: the `Put` of the marshalled record; its error is only logged. -/
def doCache (w : Writer Point) (b : Body) (fc : FailCache) : Event :=
  .put fc (K.marshal ⟨int32 (K.catURL w.category), int32 b.payload, b.buf⟩)

def uncachedCategories : List String :=
  [K.metric, K.metricDeprecated, K.object, K.customObject, K.dynamicDatawayCategory]

/-- The failure branch of `writeBody`: no cache write on a 4xx answer or without a cache,
otherwise one unless the writer's category is dropped. -/
def cacheOnFailure (w : Writer Point) (b : Body) (err : WriteError) : List Event :=
  if err == .writePoints4XX then []
  else match w.fc with
    | none => []
    | some fc =>
      if w.cacheAll then [doCache K w b fc]
      else if (uncachedCategories K).contains w.category then []
      else [doCache K w b fc]

/-- `writeBody`: the shared writer takes the body's gzip flag, the body is sent, and a failure
goes through `cacheOnFailure`. Returns the writer as the call leaves it. -/
def writeBody (ep : EndPoint) (w : Writer Point) (b : Body) (x : Exchange) (flag : BitVec 64) :
    Effect (Writer Point) :=
  let w := { w with gzip := b.gzon }
  let r := writePointData K ep b w x flag
  ⟨w, r.events ++ (match r.result with
    | .ok () => []
    | .error err => cacheOnFailure K w b err), r.beyondUsage⟩

def writeBodies (ep : EndPoint) :
    Writer Point → List Body → (Nat → Exchange) → BitVec 64 → Effect (Writer Point)
  | w, [], _, flag => ⟨w, [], flag⟩
  | w, b :: bs, xs, flag =>
    let r := writeBody K ep w b (xs 0) flag
    let rest := writeBodies ep r.result bs (fun i => xs (i + 1)) r.beyondUsage
    ⟨rest.result, r.events ++ rest.events, rest.beyondUsage⟩

/-- `writePoints`: only a failure of `buildBody` is returned. -/
def writePoints (ep : EndPoint) (w : Writer Point) (xs : Nat → Exchange) (flag : BitVec 64) :
    Effect (Except String Unit × Writer Point) :=
  match K.buildBody w.pts K.maxKodoBody with
  | .error e => ⟨(.error e, w), [], flag⟩
  | .ok bodies =>
    let r := writeBodies K ep w bodies xs flag
    ⟨(.ok (), r.result), r.events, r.beyondUsage⟩

/-! ### One spec lemma per stage -/

variable {K}

theorem resolveURL_of_lookup {ep : EndPoint} {w : Writer Point} {requrl : String}
    (h : ep.categoryURL.lookup w.category = some requrl) : resolveURL ep w = .ok (requrl, false) := by
  simp [resolveURL, h]

/-- The route: the category's URL when the category has one; otherwise the dynamic URL, which
arms the dial-testing report, when it is not empty and parses; otherwise an error. -/
theorem resolveURL_eq_ok {ep : EndPoint} {w : Writer Point} {requrl : String} {dialTesting : Bool}
    (h : resolveURL ep w = .ok (requrl, dialTesting)) :
    (ep.categoryURL.lookup w.category = some requrl ∧ dialTesting = false) ∨
      (ep.categoryURL.lookup w.category = none ∧ w.dynamicURL ≠ "" ∧
        (∃ u, parseRequestURI w.dynamicURL = .ok u) ∧ requrl = w.dynamicURL ∧ dialTesting = true) := by
  unfold resolveURL at h
  split at h
  · cases h; exact .inl ⟨‹_›, rfl⟩
  · split at h
    · split at h
      · cases h
      · cases h; exact .inr ⟨‹_›, by simpa using ‹(w.dynamicURL != "") = true›, ⟨_, ‹_›⟩, rfl, rfl⟩
    · cases h

theorem resolveURL_of_dynamic {ep : EndPoint} {w : Writer Point} {u : URL}
    (h : ep.categoryURL.lookup w.category = none) (hd : w.dynamicURL ≠ "")
    (hp : parseRequestURI w.dynamicURL = .ok u) : resolveURL ep w = .ok (w.dynamicURL, true) := by
  simp [resolveURL, h, hd, hp]

theorem resolveURL_error {ep : EndPoint} {w : Writer Point}
    (h : ep.categoryURL.lookup w.category = none)
    (hd : w.dynamicURL = "" ∨ ∃ e, parseRequestURI w.dynamicURL = .error e) :
    ∃ e, resolveURL ep w = .error e := by
  by_cases hempty : w.dynamicURL = ""
  · exact ⟨.invalidURL w.dynamicURL, by simp [resolveURL, h, hempty]⟩
  · obtain ⟨e, he⟩ := hd.resolve_left hempty
    exact ⟨.parseDynamicURL e, by simp [resolveURL, h, hempty, he]⟩

theorem foldl_set_header (l : List (String × String)) (req : Request) :
    l.foldl (fun req kv => { req with header := req.header.set kv.1 kv.2 }) req =
      { req with header := l.foldl (fun h kv => h.set kv.1 kv.2) req.header } := by
  induction l generalizing req with
  | nil => rfl
  | cons kv l ih => simp only [List.foldl_cons, ih]

/-- A built request: what `NewRequest` makes of the URL and the body, with the gzip header when
the writer gzips, then every extra header. -/
theorem buildRequest_eq_ok {requrl : String} {w : Writer Point} {b : Body} {req : Request}
    (h : buildRequest K requrl w b = .ok req) :
    ∃ req0, newRequest "POST" requrl b.buf = .ok req0 ∧
      req =
        { req0 with
          header := K.extraHeaders.foldl (fun h kv => h.set kv.1 kv.2)
            (if w.gzip then req0.header.set "Content-Encoding" "gzip" else req0.header) } := by
  unfold buildRequest at h
  split at h
  · cases h
  · rename_i req0 h0
    refine ⟨req0, h0, ?_⟩
    simp only [Except.ok.injEq, foldl_set_header] at h
    rw [← h]
    split <;> rfl

@[simp] theorem resolveURL_gzip (ep : EndPoint) (w : Writer Point) (g : Bool) :
    resolveURL ep { w with gzip := g } = resolveURL ep w := rfl

theorem postAndClassify_events (requrl : String) (w : Writer Point) (b : Body) (x : Exchange)
    (flag : BitVec 64) :
    (postAndClassify K requrl w b x flag).2.events =
      match buildRequest K requrl w b with
      | .ok req => [.send req]
      | .error _ => [] := by
  unfold postAndClassify
  split
  · simp [*]
  · rename_i req hreq
    simp only [hreq]
    split
    · rfl
    · split <;> rfl

theorem postAndClassify_result {requrl : String} {w : Writer Point} {b : Body} {req : Request}
    (h : buildRequest K requrl w b = .ok req) (x : Exchange) (flag : BitVec 64) :
    (postAndClassify K requrl w b x flag).2.result =
      match x.response with
      | .error e => .error (.send e)
      | .ok resp =>
        match resp.body with
        | .error e => .error (.readBody e)
        | .ok _ => statusResult resp.statusCode := by
  simp only [postAndClassify, h]
  split
  · rfl
  · split <;> rfl

theorem writePointData_of_resolveURL_error {ep : EndPoint} {w : Writer Point} {e : WriteError}
    (h : resolveURL ep w = .error e) (b : Body) (x : Exchange) (flag : BitVec 64) :
    writePointData K ep b w x flag = ⟨.error e, [], flag⟩ := by
  simp [writePointData, h]

/-- A routed call: what `postAndClassify` does, then the counters and, for a dynamic URL, a
dial-testing report that always says the delivery failed. -/
theorem writePointData_of_resolveURL_ok {ep : EndPoint} {w : Writer Point} {requrl : String}
    {dialTesting : Bool} (h : resolveURL ep w = .ok (requrl, dialTesting)) (b : Body)
    (x : Exchange) (flag : BitVec 64) :
    writePointData K ep b w x flag =
      { (postAndClassify K requrl w b x flag).2 with
        events := (postAndClassify K requrl w b x flag).2.events ++
          .metric (metricCategory K w) (postAndClassify K requrl w b x flag).1 b.buf.length b.npts
            w.isSinker :: if dialTesting then [.dialTest requrl false] else [] } := by
  simp only [writePointData, h]
  rfl

theorem mem_writePointData_send {ep : EndPoint} {b : Body} {w : Writer Point} {x : Exchange}
    {flag : BitVec 64} {req : Request} (h : .send req ∈ (writePointData K ep b w x flag).events) :
    ∃ requrl dialTesting, resolveURL ep w = .ok (requrl, dialTesting) ∧
      buildRequest K requrl w b = .ok req := by
  cases hr : resolveURL ep w with
  | error e => simp [writePointData_of_resolveURL_error hr] at h
  | ok r =>
    obtain ⟨requrl, dialTesting⟩ := r
    rw [writePointData_of_resolveURL_ok hr, postAndClassify_events] at h
    refine ⟨requrl, dialTesting, rfl, ?_⟩
    split at h <;> simp_all

@[simp] theorem writePointData_puts (ep : EndPoint) (b : Body) (w : Writer Point) (x : Exchange)
    (flag : BitVec 64) : (writePointData K ep b w x flag).events.filterMap Event.put? = [] := by
  cases hr : resolveURL ep w with
  | error e => simp [writePointData_of_resolveURL_error hr]
  | ok r =>
    rw [writePointData_of_resolveURL_ok hr, postAndClassify_events]
    split <;> split <;> simp

theorem writeBody_eq (ep : EndPoint) (w : Writer Point) (b : Body) (x : Exchange)
    (flag : BitVec 64) :
    writeBody K ep w b x flag =
      ⟨{ w with gzip := b.gzon },
        (writePointData K ep b { w with gzip := b.gzon } x flag).events ++
          (match (writePointData K ep b { w with gzip := b.gzon } x flag).result with
            | .ok () => []
            | .error err => cacheOnFailure K { w with gzip := b.gzon } b err),
        (writePointData K ep b { w with gzip := b.gzon } x flag).beyondUsage⟩ := rfl

theorem writeBody_gzip (ep : EndPoint) (w : Writer Point) (g : Bool) (b : Body) (x : Exchange)
    (flag : BitVec 64) : writeBody K ep { w with gzip := g } b x flag = writeBody K ep w b x flag :=
  rfl

/-- **The loop runs the bodies one by one, in order**: the events of `writeBodies` are those of
one `writeBody` call per body, whatever the earlier bodies' outcomes. -/
theorem writeBodies_events (ep : EndPoint) (w : Writer Point) (bs : List Body)
    (xs : Nat → Exchange) (flag : BitVec 64) :
    ∃ per : List (List Event), (writeBodies K ep w bs xs flag).events = per.flatten ∧
      List.Forall₂ (fun b evs => ∃ x f, evs = (writeBody K ep w b x f).events) bs per := by
  induction bs generalizing w xs flag with
  | nil => exact ⟨[], rfl, .nil⟩
  | cons b bs ih =>
    obtain ⟨per, hper, hall⟩ := ih { w with gzip := b.gzon } (fun i => xs (i + 1))
      (writeBody K ep w b (xs 0) flag).beyondUsage
    refine ⟨(writeBody K ep w b (xs 0) flag).events :: per, ?_, .cons ⟨xs 0, flag, rfl⟩ ?_⟩
    · simp only [writeBodies, List.flatten_cons, ← hper]
      rfl
    · exact hall.imp fun _ _ ⟨x, f, h⟩ => ⟨x, f, h.trans (by rw [writeBody_gzip])⟩

theorem filterMap_flatten_of_forall₂ {α : Type} {p : Event → Option α} {f : Body → List α}
    {bs : List Body} {per : List (List Event)}
    (h : List.Forall₂ (fun b evs => evs.filterMap p = f b) bs per) :
    per.flatten.filterMap p = bs.flatMap f := by
  induction h with
  | nil => rfl
  | cons hb _ ih => simp [List.filterMap_append, hb, ih]

end

/-! ### Concrete inputs -/

/-- A context for concrete runs: the spec's category paths, one body holding every point, and
the cache record's payload as its encoding. -/
def exampleCtx : Ctx (List UInt8) where
  buildBody pts _ := .ok [⟨pts.flatten, pts.length, 0, false⟩]
  maxKodoBody := 0
  extraHeaders := []
  metric := "/v1/write/metric"
  metricDeprecated := "/v1/write/metrics"
  object := "/v1/write/object"
  customObject := "/v1/write/custom_object"
  dynamicDatawayCategory := "dynamicDatawayCategory"
  logFilter := "/v1/logfilter/pull"
  datakitPull := "/v1/datakit/pull"
  catURL _ := 0
  catString _ := ""
  dynamicDWCategory := 0
  marshal d := d.payload
  statusText _ := ""

/-- The endpoint of the spec's scenarios: categories `metric` and `logging` on
`https://gw.example/?token=T1`. -/
def gwEndpoint : EndPoint where
  token := "T1"
  host := "gw.example"
  scheme := "https"
  categoryURL :=
    [("/v1/write/logging", "https://gw.example/v1/write/logging?token=T1"),
      ("/v1/write/metric", "https://gw.example/v1/write/metric?token=T1")]
  httpCli := some ⟨⟨0, 0, true, none⟩, 0⟩
  apis := ["/v1/write/metric", "/v1/write/logging"]

example : newEndpoint "https://gw.example/?token=T1"
    [some (.withAPIs ["/v1/write/metric", "/v1/write/logging"])] true = .ok gwEndpoint := by
  decide

end LeanDataway
