import ReadThrough.Scenario.CallId
import ReadThrough.Scenario.Run
import ReadThrough.Store.Entry
import ReadThrough.Table

/-!
# Scripts over entries and their leases

A script names tokens as it takes them, and schedules, starts and gives back leases
of numbered entries.
-/

namespace ReadThrough.Scenario

/-- An entry that a script starts with. -/
structure EntryPlan where
  value : Option String
  created : Instant
  timeToLive : Span
  deriving DecidableEq

def instantExpiryText : String := "entries must expire after they are created"

/-- Make the entry, or give the text of the crash that this is. -/
def EntryPlan.make (p : EntryPlan) : Except String (Entry String) :=
  if p.timeToLive.isZero then .error instantExpiryText
  else
    match Entry.fresh? p.value p.created p.timeToLive with
    | none => .error timeOverflowText
    | some e => .ok e

inductive LeaseStep where
  | next (token : String)
  | schedule (entry : Nat) (token : String)
  | start (entry : Nat) (token : String)
  | release (entry : Nat) (token : String)
  | touch (entry : Nat) (time : Instant)
  | expired (entry : Nat) (time : Instant)
  | info (entry : Nat)

/-- What a step answers by itself. -/
inductive LeaseAnswer where
  | nothing
  | flag (b : Bool)
  | info (value : Option String) (created expires : Instant)

inductive LeaseReport where
  | taken (token : Token)
  | entry (answer : LeaseAnswer) (stage : Stage) (accessTime : Instant)
  | unknown

structure LeaseRun where
  entries : Array (Entry String)
  counter : TokenCounter
  tokens : Table String Token

namespace LeaseRun

/-- Apply `f` to one entry and report on it afterwards. -/
def onEntry (s : LeaseRun) (i : Nat) (f : Entry String → LeaseAnswer × Entry String) :
    LeaseReport × LeaseRun :=
  match s.entries[i]? with
  | none => (.unknown, s)
  | some e =>
    let (answer, e) := f e
    (.entry answer e.stage e.accessTime, { s with entries := s.entries.modify i fun _ => e })

def onEntryWith (s : LeaseRun) (i : Nat) (token : String)
    (f : Token → Entry String → LeaseAnswer × Entry String) : LeaseReport × LeaseRun :=
  match s.tokens.get? token with
  | none => (.unknown, s)
  | some t => s.onEntry i (f t)

/-- Do something to an entry, and say whether it has succeeded if that can be told. -/
def react (ev : EntryEvent) (e : Entry String) : LeaseAnswer × Entry String :=
  match e.answer? ev with
  | some b => (.flag b, e.perform ev)
  | none => (.nothing, e.perform ev)

def step (s : LeaseRun) : LeaseStep → LeaseReport × LeaseRun
  | .next name =>
    let (t, counter) := s.counter.next
    (.taken t, { s with counter := counter, tokens := s.tokens.put name t })
  | .schedule i t => s.onEntryWith i t fun t => react (.schedule t)
  | .start i t => s.onEntryWith i t fun t => react (.start t)
  | .release i t => s.onEntryWith i t fun t => react (.release t)
  | .touch i now => s.onEntry i (react (.touch now))
  | .expired i now => s.onEntry i fun e => (.flag (e.hasExpired now), e)
  | .info i => s.onEntry i fun e => (.info e.value e.created e.expires, e)

def run (plans : List EntryPlan) (counter : TokenCounter) (steps : List LeaseStep) :
    Except String (List LeaseReport) :=
  (plans.mapM EntryPlan.make).map fun entries =>
    (runSteps step ⟨entries.toArray, counter, .empty⟩ steps).1

end LeaseRun

end ReadThrough.Scenario
