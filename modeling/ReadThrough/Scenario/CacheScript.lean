import ReadThrough.Hub
import ReadThrough.Scenario.CallId
import ReadThrough.Scenario.LoadPlan
import ReadThrough.Scenario.Machine
import ReadThrough.Scenario.Run

/-!
# Scripts over caches, listeners and broadcasters

A script works with one hub whose keys and values are texts. Every cache has a source
that follows a list of plans, the first for the first load asked of it. Renewals are
queued when they are scheduled, and again when a gate that they wait at opens; they run
only in a step of their own, in the order of the queue. A step over a range without keys
is answered alike whether or not its handle stands for a cache.
-/

namespace ReadThrough.Scenario

/-- The caches that a script works with. -/
abbrev ScriptCache := Cache CallId String String String String

abbrev ScriptHub := Hub CallId String String String String

abbrev CacheRef := Ref ScriptCache

inductive CacheStep where
  | setUp (id cache scope : String) (plans : List LoadPlan) (policy : Policy)
      (executor : Executor) (apart : Bool)
  | clone (cache copy : String)
  | drop (id : String)
  | listen (id : String) (listener : Listener String)
  | registerListener (registry listener : String)
  | registerCache (registry cache : String) (quietly : Bool)
  | broadcaster (id registry : String) (peers : Peers)
  | get (cache key : String) (call waker : String)
  | poll (call waker : String)
  | dropCall (call : String)
  | changed (cache key : String)
  | heard (cache key : String)
  | invalidate (cache key : String)
  | clear (cache : String)
  | stage (cache key : String)
  | info (cache : String)
  | fill (cache keyStem : String) (first stop : Int) (tick : Nat)
  | present (cache keyStem : String) (first stop : Int)
  | seen (listener : String)
  | advance (span : Nat)
  | openGate (gate : String)
  | runRenewals
  | registry (name : String)
  | matching (registry scope : String)
  | announce (broadcaster scope key : String)
  | relay (broadcaster scope key : String)
  | published (broadcaster : String)
  | passOn (source target : String)
  | broadcasterInfo (broadcaster : String)

/-- What a cache tells about itself. -/
structure CacheInfo where
  name : String
  scope : String
  isEmpty : Bool
  size : Nat

def CacheInfo.ofCache (c : ScriptCache) : CacheInfo :=
  ⟨c.name, c.scope, c.store.isEmpty, c.store.size⟩

def CacheInfo.text (i : CacheInfo) : String :=
  "CacheEntryRepository \x7b name: " ++ Text.quoted i.name ++ ", scope: " ++ Text.quoted i.scope
    ++ ", entries: " ++ toString i.size ++ " \x7d"

def broadcasterText (registered : Nat) : String :=
  "ChangeNotifier \x7b listeners: " ++ toString registered ++ " \x7d"

inductive CacheAnswer where
  | nothing
  | pending
  | info (i : CacheInfo)
  | refused (e : SetupError)
  | value (v : Option String)
  | error (text : String)
  | crash (text : String)
  | flag (b : Bool)
  | stage (s : Stage)
  | count (n : Nat)
  | integers (is : List Int)
  | texts (ts : List String)
  | heard (name scope : String)
  | registry (size : Nat) (isEmpty : Bool) (scopes : List String)
  | publications (ps : List (String × String))
  | passedOn (ps : List (String × String × Nat))
  | broadcaster (text : String) (living : Nat)

/-- The source of a cache: its plans, and the loads asked of it so far. -/
structure PlannedSource where
  label : String
  plans : List LoadPlan
  asked : Nat

instance : Inhabited PlannedSource := ⟨⟨"", [], 0⟩⟩

def PlannedSource.plan (s : PlannedSource) : LoadPlan := s.plans[s.asked]?.getD default

/-- Who waits at a gate. -/
inductive Waiter where
  | caller (waker : String)
  | renewal (cache : CacheRef) (id : Nat)
  deriving DecidableEq

/-- What a step has left behind besides its answer. -/
structure StepLog where
  woken : List String := []
  records : List LogRecord := []
  loads : List (String × String) := []

structure CacheRun where
  now : Instant
  catalogue : Catalogue
  hub : ScriptHub
  gates : Gates Waiter
  sources : Table CacheRef PlannedSource
  calls : Table CallId CacheRef
  callLoads : Table CallId PlannedLoad
  renewalLoads : Table (CacheRef × Nat) PlannedLoad
  queue : List (CacheRef × Nat)
  log : StepLog

/-- What a step reports: its answer, and for each handle on a cache the cache's size and counts. -/
structure CacheReport where
  answer : CacheAnswer
  caches : List (String × Nat × Tally)
  log : StepLog

/-- A hash of texts that spreads them over shards. -/
def textHash (s : String) : UInt64 :=
  s.toList.foldl (fun h c => h * 31 + c.toNat.toUInt64) 7

/-- The bytes of a text apart from its characters. -/
def textBytes : Nat := 24

namespace CacheRun

def ofCatalogue (catalogue : Catalogue) : CacheRun where
  now := 0
  catalogue := catalogue
  hub := .empty
  gates := .empty
  sources := .empty
  calls := .empty
  callLoads := .empty
  renewalLoads := .empty
  queue := []
  log := {}

def logWoken (s : CacheRun) (woken : List String) : CacheRun :=
  { s with log := { s.log with woken := s.log.woken ++ woken } }

def logRecords (s : CacheRun) (records : List LogRecord) : CacheRun :=
  { s with log := { s.log with records := s.log.records ++ records } }

def logNotices (s : CacheRun) (c : ScriptCache) (notices : List (Notice String)) : CacheRun :=
  s.logRecords (notices.map (Notice.record c.name))

def enqueue (s : CacheRun) (r : CacheRef) (spawned : Option Nat) : CacheRun :=
  { s with queue := s.queue ++ spawned.toList.map fun id => (r, id) }

def setCache (s : CacheRun) (r : CacheRef) (c : ScriptCache) : CacheRun :=
  { s with hub := s.hub.setCache r c }

def absorb (s : CacheRun) (t : Hub.Told CallId String String String String) : CacheRun :=
  { s with hub := t.hub, queue := s.queue ++ t.spawned }.logRecords (t.notices.map HubNotice.record)

def noteAsked (s : CacheRun) (r : CacheRef) (key : String) : CacheRun :=
  let source := s.sources.getD r default
  { s with
    sources := s.sources.put r { source with asked := source.asked + 1 }
    log := { s.log with loads := s.log.loads ++ [(source.label, key)] } }

/-- Ask the source of a cache for a load, and run it at once. A source that refuses makes
the load crash. -/
def runNewLoad (s : CacheRun) (r : CacheRef) (key : String) (who : Waiter) :
    Reply String String × PlannedLoad × Gates Waiter :=
  let source := s.sources.getD r default
  let plan := source.plan
  let load := plan.begin key (source.asked + 1)
  match plan.refusal with
  | some text => (.crashed 0 text, load, s.gates)
  | none => load.run s.gates s.now who

def cacheOf (s : CacheRun) (handle : String) : Option (CacheRef × ScriptCache) :=
  match s.hub.cacheHandles.get? handle with
  | none => none
  | some r => (s.hub.caches.get? r).map fun c => (r, c)

def answerOf (c : ScriptCache) : Option (Outcome String String String) → CacheAnswer
  | none => .nothing
  | some .pending => .pending
  | some (.hit r) => .value ((c.store.entryAt? r).bind (·.value))
  | some (.loaded r) => .value ((c.store.entryAt? r).bind (·.value))
  | some (.loadFailed _ e) => .error e
  | some (.sharedFailure _ e) => .error e
  | some (.crashed text) => .crash text
  | some .expiryOverflow => .crash timeOverflowText
  | some .exhausted => .crash exhaustedText
  | some .unarmed => .crash unarmedText

def answerOfServed (v : Cache.Served CallId String String String String) : CacheAnswer :=
  if v.undecided then .crash timeOverflowText else answerOf v.cache v.outcome

/-- Take over what polling a get has done, given the load that it would have run. -/
def absorbServed (s : CacheRun) (r : CacheRef) (id : CallId) (key : String)
    (served : Cache.Served CallId String String String String × ScriptHub)
    (run : Reply String String × PlannedLoad × Gates Waiter) : CacheAnswer × CacheRun :=
  let (v, hub) := served
  let s := { s with hub := hub }
  let s := if v.asked then s.noteAsked r key else s
  let s := if v.ran then
      { s with
        now := s.now + run.1.elapsed
        gates := run.2.2
        callLoads := s.callLoads.put id run.2.1 }
    else s
  let s := ((s.logWoken v.woken).logNotices v.cache v.notices).enqueue r v.spawned
  let answer := answerOfServed v
  let isPending := v.cache.session.calls.contains id
  (answer, { s with calls := if isPending then s.calls.put id r else s.calls.erase id })

def dropCall (s : CacheRun) (id : CallId) : CacheRun :=
  match s.calls.get? id with
  | none => s
  | some r =>
    match s.hub.caches.get? r with
    | none => s
    | some c =>
      let (woken, hub) := s.hub.dropCall r c id
      { s with hub := hub, calls := s.calls.erase id }.logWoken woken

def get (s : CacheRun) (r : CacheRef) (id : CallId) (key waker : String) :
    CacheAnswer × CacheRun :=
  let s := s.dropCall id
  match s.hub.caches.get? r with
  | none => (.nothing, s)
  | some c =>
    let run := s.runNewLoad r key (.caller waker)
    s.absorbServed r id key (s.hub.get r c id key s.now waker run.1) run

def poll (s : CacheRun) (id : CallId) (waker : String) : CacheAnswer × CacheRun :=
  match s.calls.get? id with
  | none => (.nothing, s)
  | some r =>
    match s.hub.caches.get? r with
    | none => (.nothing, s)
    | some c =>
      match c.session.calls.get? id with
      | none => (.nothing, s)
      | some call =>
        let run :=
          if c.session.isLoading id then
            (s.callLoads.getD id default).run s.gates s.now (.caller waker)
          else s.runNewLoad r call.key (.caller waker)
        match s.hub.poll r c id s.now waker run.1 with
        | none => (.nothing, s)
        | some served => s.absorbServed r id call.key served run

def runRenewal (s : CacheRun) (r : CacheRef) (id : Nat) : CacheRun :=
  match s.hub.caches.get? r with
  | none => s
  | some c =>
    match c.renewals.get? id with
    | none => s
    | some renewal =>
      let who := Waiter.renewal r id
      let run :=
        if renewal.running then (s.renewalLoads.getD (r, id) default).run s.gates s.now who
        else s.runNewLoad r renewal.key who
      match s.hub.runRenewal r c id s.now run.1 with
      | none => s
      | some (v, hub) =>
        let s := { s with hub := hub }
        let s := if v.asked then s.noteAsked r renewal.key else s
        let s := if v.ran then
            { s with
              now := s.now + run.1.elapsed
              gates := run.2.2
              renewalLoads := s.renewalLoads.put (r, id) run.2.1 }
          else s
        s.logNotices v.cache v.notices

/-- Run every renewal in the queue. None of them adds to it. -/
def runQueue (s : CacheRun) : CacheRun :=
  s.queue.foldl (fun s x => s.runRenewal x.1 x.2) { s with queue := [] }

def fire (s : CacheRun) (waiters : List Waiter) : CacheRun :=
  waiters.foldl
    (fun s w => match w with
      | .caller waker => s.logWoken [waker]
      | .renewal r id => s.enqueue r (some id))
    s

def elapse? (s : CacheRun) (d : Nat) : Option CacheRun :=
  (Instant.after? s.now d).map fun t => { s with now := t }

/-- Get each key once, give up what does not answer at once, and let time pass, until
something crashes; how many answered, or the text of the crash. -/
def fill (r : CacheRef) (tick : Nat) : List String → CacheRun → Except String Nat × CacheRun
  | [], s => (.ok 0, s)
  | k :: ks, s =>
    let (answer, s) := s.get r .transient k "fill"
    let s := s.dropCall .transient
    match answer, s.elapse? tick with
    | .crash text, _ => (.error text, s)
    | _, none => (.error timeOverflowText, s)
    | answer, some later =>
      let isReady := match answer with
        | .value _ => true
        | .error _ => true
        | _ => false
      let (count, s) := fill r tick ks later
      (count.map fun n => (if isReady then 1 else 0) + n, s)

def setUp (s : CacheRun) (id cache scope : String) (plans : List LoadPlan) (policy : Policy)
    (executor : Executor) (apart : Bool) : CacheAnswer × CacheRun :=
  let now := if apart then 0 else s.now
  match Cache.setUp s.catalogue cache scope policy executor textHash textBytes now with
  | .error (.refused e) => (.refused e, s)
  | .error (.unbuildable e) => (.crash e.message, s)
  | .ok c =>
    let r := s.hub.caches.next
    let s := { s with
      hub := s.hub.addCache id c
      sources := s.sources.put r ⟨id, plans, 0⟩ }
    (.info (.ofCache c), s.logNotices c [c.setUpNotice])

/-- Tell a cache of a change, and answer so unless it crashes over that. -/
def change (s : CacheRun) (r : CacheRef) (key : String) (answer : CacheAnswer) :
    CacheAnswer × CacheRun :=
  match s.hub.tellCache r key s.now with
  | some t => (answer, s.absorb t)
  | none => (.crash timeOverflowText, s)

def announce (s : CacheRun) (name scope key : String) : CacheAnswer × CacheRun :=
  match s.hub.broadcasters.get? name with
  | none => (.nothing, s)
  | some b =>
    let a := s.hub.announce name b scope key s.now
    let answer := match a.answer with
      | .error text => .crash text
      | .ok count => .count count
    (answer, s.absorb a.told)

def relay (s : CacheRun) (b : Broadcaster String) (scope key : String) : Nat × CacheRun :=
  let (verdicts, t) := s.hub.relay b scope key s.now
  (accepted verdicts, s.absorb t)

def relayAll (b : Broadcaster String) :
    List (String × String) → CacheRun → List (String × String × Nat) × CacheRun
  | [], s => ([], s)
  | p :: ps, s =>
    let (count, s) := s.relay b p.1 p.2
    let (rest, s) := relayAll b ps s
    ((p.1, p.2, count) :: rest, s)

def passOn (s : CacheRun) (source target : String) : CacheAnswer × CacheRun :=
  let (publications, hub) := s.hub.fetchPublished source
  let s := { s with hub := hub }
  match s.hub.broadcasters.get? target with
  | none => (.nothing, s)
  | some b =>
    let (counts, s) := relayAll b publications s
    (.passedOn counts, s)

def registerCache (s : CacheRun) (registry : String) (r : CacheRef) (c : ScriptCache)
    (quietly : Bool) : CacheRun :=
  let s := { s with hub := s.hub.register registry (.cache r) }
  if quietly then s
  else s.logRecords [(HubNotice.registered c.name c.scope : HubNotice String String).record]

def broadcasterInfo (s : CacheRun) (name : String) : CacheAnswer :=
  match s.hub.broadcasters.get? name with
  | none => .nothing
  | some b =>
    let registry := s.hub.registry b.registry
    .broadcaster (broadcasterText registry.registered.length) (registry.size s.hub.scopeOf)

def withCache (s : CacheRun) (handle : String)
    (f : CacheRef → ScriptCache → CacheAnswer × CacheRun) : CacheAnswer × CacheRun :=
  match s.cacheOf handle with
  | none => (.nothing, s)
  | some (r, c) => f r c

def perform (s : CacheRun) : CacheStep → CacheAnswer × CacheRun
  | .setUp id cache scope plans policy executor apart =>
    s.setUp id cache scope plans policy executor apart
  | .clone cache copy =>
    s.withCache cache fun r _ => (.nothing, { s with hub := s.hub.hold copy (.cache r) })
  | .drop id =>
    let (dropped, hub) := s.hub.dropHandle id
    (.flag dropped, { s with hub := hub })
  | .listen id listener => (.nothing, { s with hub := s.hub.addListener id listener })
  | .registerListener registry id =>
    match s.hub.listenerHandles.get? id with
    | none => (.nothing, s)
    | some r => (.nothing, { s with hub := s.hub.register registry (.listener r) })
  | .registerCache registry cache quietly =>
    s.withCache cache fun r c => (.nothing, s.registerCache registry r c quietly)
  | .broadcaster id registry peers =>
    (.nothing, { s with hub := s.hub.addBroadcaster id registry peers })
  | .get cache key call waker =>
    s.withCache cache fun r _ => s.get r (.named call) key waker
  | .poll call waker => s.poll (.named call) waker
  | .dropCall call => (.nothing, s.dropCall (.named call))
  | .changed cache key => s.withCache cache fun r _ => s.change r key .nothing
  | .heard cache key => s.withCache cache fun r c => s.change r key (.heard c.name c.scope)
  | .invalidate cache key =>
    s.withCache cache fun r c =>
      let (removed, c) := c.discard key
      (.flag removed, s.setCache r c)
  | .clear cache => s.withCache cache fun r c => (.nothing, s.setCache r c.clear)
  | .stage cache key =>
    s.withCache cache fun _ c =>
      (match c.stage? key s.now with
        | some stage => .stage stage
        | none => .nothing, s)
  | .info cache => s.withCache cache fun _ c => (.info (.ofCache c), s)
  | .fill cache keyStem first stop tick =>
    if stop ≤ first then (.count 0, s)
    else s.withCache cache fun r _ =>
      let keys := (integersFrom first stop).map fun i => keyStem ++ toString i
      let (count, s) := fill r tick keys s
      (match count with
        | .ok n => .count n
        | .error text => .crash text, s)
  | .present cache keyStem first stop =>
    if stop ≤ first then (.integers [], s)
    else s.withCache cache fun _ c =>
      let isPresent (i : Int) : Bool := (c.stage? (keyStem ++ toString i) s.now).isSome
      (.integers ((integersFrom first stop).filter isPresent), s)
  | .seen listener =>
    match (s.hub.listenerHandles.get? listener).bind s.hub.listeners.get? with
    | none => (.nothing, s)
    | some l => (.texts l.heard, s)
  | .advance d =>
    match s.elapse? d with
    | none => (.crash timeOverflowText, s)
    | some later => (.nothing, later)
  | .openGate gate =>
    let (waiters, gates) := s.gates.unlatch gate
    (.nothing, { s with gates := gates }.fire waiters)
  | .runRenewals => (.nothing, s.runQueue)
  | .registry name =>
    let registry := s.hub.registry name
    (.registry (registry.size s.hub.scopeOf) (registry.isEmpty s.hub.scopeOf)
      (registry.livingScopes s.hub.scopeOf), s)
  | .matching name scope =>
    let (found, hub) := s.hub.search name scope
    (.texts (found.map hub.nameOf), { s with hub := hub })
  | .announce broadcaster scope key => s.announce broadcaster scope key
  | .relay broadcaster scope key =>
    match s.hub.broadcasters.get? broadcaster with
    | none => (.nothing, s)
    | some b =>
      let (count, s) := s.relay b scope key
      (.count count, s)
  | .published broadcaster =>
    let (publications, hub) := s.hub.fetchPublished broadcaster
    (.publications publications, { s with hub := hub })
  | .passOn source target => s.passOn source target
  | .broadcasterInfo broadcaster => (s.broadcasterInfo broadcaster, s)

def summary (s : CacheRun) : List (String × Nat × Tally) :=
  s.hub.cacheHandles.toList.filterMap fun x =>
    (s.hub.caches.get? x.2).map fun c => (x.1, c.store.size, c.tally.shown)

def step (s : CacheRun) (x : CacheStep) : CacheReport × CacheRun :=
  let (answer, s) := { s with log := {} }.perform x
  (⟨answer, s.summary, s.log⟩, s)

def run (catalogue : Catalogue) (steps : List CacheStep) : List CacheReport :=
  (runSteps step (ofCatalogue catalogue) steps).1

end CacheRun

end ReadThrough.Scenario
