import ReadThrough.Scenario.CallId
import ReadThrough.Scenario.LoadPlan
import ReadThrough.Scenario.Run
import ReadThrough.Store.Layout
import ReadThrough.Store.Session

/-!
# Scripts over a store

A script makes, polls and drops calls on one store whose keys are integers, each its
own hash, and looks at the entries. Every call comes with the plan of the load it
would lead. What a call last resolved to is remembered under its name.
-/

namespace ReadThrough.Scenario

inductive StoreStep where
  | start (key : Int) (call : String) (plan : LoadPlan)
  | get (key : Int) (call : String) (plan : LoadPlan) (waker : String)
  | poll (call waker : String)
  | drop (call : String)
  | entry (call : String)
  | same (call other : String)
  | peek (key : Int)
  | remove (key : Int)
  | clear
  | timeToLive
  | advance (span : Nat)
  | openGate (gate : String)
  | fill (first stop : Int) (tick : Nat)
  | present (first stop : Int)

/-- An entry as it stands at some instant. -/
structure EntryView where
  value : Option String
  created : Instant
  expires : Instant
  accessTime : Instant
  expired : Bool
  stage : Stage

inductive StoreAnswer where
  | nothing
  | pending
  | entry (view : EntryView)
  | error (text : String)
  | crash (text : String)
  | flag (b : Bool)
  | count (n : Nat)
  | span (d : Span)
  | keys (ks : List Int)

structure StoreReport where
  answer : StoreAnswer
  size : Nat
  isEmpty : Bool
  loads : Nat
  woken : List String

abbrev ScriptSession := Session CallId Int String String String

structure StoreRun where
  now : Instant
  session : ScriptSession
  gates : Gates String
  loads : Nat
  plans : Table CallId LoadPlan
  underWay : Table CallId PlannedLoad
  resolved : Table String (Ref (Entry String))

/-- A key's hash is the key itself, as 64 bits in two's complement. -/
def integerHash (k : Int) : UInt64 := UInt64.ofInt k

def integerBytes : Nat := 8

namespace StoreRun

def ofStore (s : Store Int String String String) : StoreRun where
  now := 0
  session := .ofStore s
  gates := .empty
  loads := 0
  plans := .empty
  underWay := .empty
  resolved := .empty

def store (s : StoreRun) : Store Int String String String := s.session.store

def view (s : StoreRun) (r : Ref (Entry String)) : StoreAnswer :=
  match s.store.entryAt? r with
  | some e => .entry ⟨e.value, e.created, e.expires, e.accessTime, e.hasExpired s.now, e.stage⟩
  | none => .nothing

def viewOf (s : StoreRun) (r : Option (Ref (Entry String))) : StoreAnswer :=
  match r with
  | some r => s.view r
  | none => .nothing

def answerOf (s : StoreRun) : Outcome String String String → StoreAnswer
  | .pending => .pending
  | .hit r => s.view r
  | .loaded r => s.view r
  | .loadFailed _ e => .error e
  | .sharedFailure _ e => .error e
  | .crashed text => .crash text
  | .expiryOverflow => .crash timeOverflowText
  | .exhausted => .crash exhaustedText
  | .unarmed => .crash unarmedText

def pollCall (s : StoreRun) (id : CallId) (waker : String) :
    Option (Outcome String String String) × List String × StoreRun :=
  match s.session.calls.get? id with
  | none => (none, [], s)
  | some c =>
    let plan := s.plans.getD id default
    let load :=
      if s.session.isLoading id then s.underWay.getD id default
      else plan.begin (toString c.key) (s.loads + 1)
    let (reply, load, gates) := load.run s.gates s.now waker
    match s.session.poll id s.now waker ⟨plan.refusal, reply⟩ with
    | none => (none, [], s)
    | some (report, session) =>
      let s := { s with
        session := session
        loads := if report.asked then s.loads + 1 else s.loads }
      let s := if report.ran then
          { s with
            now := s.now + reply.elapsed
            gates := gates
            underWay := s.underWay.put id load }
        else s
      (report.outcome, report.woken, s)

def startCall (s : StoreRun) (id : CallId) (key : Int) (plan : LoadPlan) :
    List String × StoreRun :=
  let (woken, session) := s.session.start id key
  (woken, { s with session := session, plans := s.plans.put id plan })

def dropCall (s : StoreRun) (id : CallId) : List String × StoreRun :=
  let (woken, session) := s.session.drop id
  (woken, { s with session := session })

/-- Poll a call of the script and remember what it resolves to. -/
def pollNamed (s : StoreRun) (call waker : String) : StoreAnswer × List String × StoreRun :=
  let (outcome, woken, s) := s.pollCall (.named call) waker
  match outcome with
  | none => (.nothing, woken, s)
  | some o =>
    let s := match o.resolved? with
      | some r => { s with resolved := s.resolved.put call r }
      | none => s
    (s.answerOf o, woken, s)

def elapse? (s : StoreRun) (d : Nat) : Option StoreRun :=
  (Instant.after? s.now d).map fun t => { s with now := t }

/-- Make a call for each key, poll it once, drop it, and let time pass, until something
crashes; how many were ready, or the text of the crash. -/
def fill (tick : Nat) : List Int → StoreRun → Except String Nat × List String × StoreRun
  | [], s => (.ok 0, [], s)
  | k :: ks, s =>
    let (w₁, s) := s.startCall .transient k default
    let (outcome, w₂, s) := s.pollCall .transient "fill"
    let (w₃, s) := s.dropCall .transient
    match outcome.map s.answerOf, s.elapse? tick with
    | some (.crash text), _ => (.error text, w₁ ++ w₂ ++ w₃, s)
    | _, none => (.error timeOverflowText, w₁ ++ w₂ ++ w₃, s)
    | answer, some later =>
      let isReady := match answer with
        | some .pending => false
        | answer => answer.isSome
      let (count, w₄, s) := fill tick ks later
      (count.map fun n => (if isReady then 1 else 0) + n, w₁ ++ w₂ ++ w₃ ++ w₄, s)

def perform (s : StoreRun) : StoreStep → StoreAnswer × List String × StoreRun
  | .start key call plan =>
    let (woken, s) := s.startCall (.named call) key plan
    (.nothing, woken, s)
  | .get key call plan waker =>
    let (w₁, s) := s.startCall (.named call) key plan
    let (answer, w₂, s) := s.pollNamed call waker
    (answer, w₁ ++ w₂, s)
  | .poll call waker => s.pollNamed call waker
  | .drop call =>
    let (woken, s) := s.dropCall (.named call)
    (.nothing, woken, s)
  | .entry call => (s.viewOf (s.resolved.get? call), [], s)
  | .same call other =>
    (.flag ((s.resolved.get? call).any fun r => s.resolved.get? other == some r), [], s)
  | .peek key => (s.viewOf (s.store.live? key s.now), [], s)
  | .remove key =>
    let (removed, store) := s.store.remove key
    (s.viewOf removed, [], { s with session := { s.session with store := store } })
  | .clear => (.nothing, [], { s with session := s.session.mapStore .clear })
  | .timeToLive => (.span s.store.timeToLive, [], s)
  | .advance d =>
    match s.elapse? d with
    | none => (.crash timeOverflowText, [], s)
    | some later => (.nothing, [], later)
  | .openGate gate =>
    let (woken, gates) := s.gates.unlatch gate
    (.nothing, woken, { s with gates := gates })
  | .fill first stop tick =>
    let (count, woken, s) := s.fill tick (integersFrom first stop)
    (match count with
      | .ok n => .count n
      | .error text => .crash text, woken, s)
  | .present first stop =>
    (.keys ((integersFrom first stop).filter fun k => (s.store.live? k s.now).isSome), [], s)

def step (s : StoreRun) (x : StoreStep) : StoreReport × StoreRun :=
  let (answer, woken, s) := s.perform x
  (⟨answer, s.store.size, s.store.isEmpty, s.loads, woken⟩, s)

def run (layout : Layout) (steps : List StoreStep) : List StoreReport :=
  (runSteps step (ofStore (.ofLayout layout integerHash)) steps).1

end StoreRun

end ReadThrough.Scenario
