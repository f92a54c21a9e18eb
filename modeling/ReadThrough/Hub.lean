import ReadThrough.Broadcast.Delivery
import ReadThrough.Broadcast.Registry
import ReadThrough.Cache.Change
import ReadThrough.Cache.Read
import ReadThrough.Cache.Renewal
import ReadThrough.References
import ReadThrough.Text.Quoted

/-!
# Caches and listeners that hear of changes

A hub holds the caches and listeners of a process, the registries that know of them,
and the broadcasters that spread changes. Caches and listeners are alive as long as there
are references to them. Handles refer to them, and searches that have found them until
that is let go; a get refers to its cache until it is over, and a renewal does until it
has ended. Being registered does not count. A change made here is delivered here and then
published to the peers; a change that a peer has published is delivered and goes no
further.
-/

namespace ReadThrough

/-- How a listener behaves when it hears of a change. -/
inductive Manner where
  | accepts
  | refuses
  | crashes
  deriving DecidableEq

/-- Something other than a cache that listens to changes, and notes the keys that it has heard of.
-/
structure Listener (κ : Type) where
  name : String
  scope : String
  manner : Manner
  heard : List κ
  deriving DecidableEq

/-- Where a broadcaster's own changes are published. -/
inductive Peers where
  | nobody
  | listening
  | refusing
  | crashing
  deriving DecidableEq

/-- Spreads changes to the subscribers of a registry and to peers. What has been published stays
with it until it is fetched. -/
structure Broadcaster (κ : Type) where
  registry : String
  peers : Peers
  published : List (String × κ)
  deriving DecidableEq

/-- Who a registration refers to. -/
inductive Subscriber (ι κ ν ε ω : Type) where
  | cache (r : Ref (Cache ι κ ν ε ω))
  | listener (r : Ref (Listener κ))

-- A derived instance would ask for the equality of the caches themselves to be decidable.
instance {ι κ ν ε ω : Type} : DecidableEq (Subscriber ι κ ν ε ω)
  | .cache r, .cache s => decidable_of_iff (r = s) (by rw [Subscriber.cache.injEq])
  | .listener r, .listener s => decidable_of_iff (r = s) (by rw [Subscriber.listener.injEq])
  | .cache _, .listener _ => isFalse nofun
  | .listener _, .cache _ => isFalse nofun

/-- What a hub reports. -/
inductive HubNotice (κ ε : Type) where
  | ofCache (name : String) (notice : Notice ε)
  | registered (name scope : String)
  | changeRefused (name scope : String) (key : κ) (error : String)
  | changeCrashed (name scope : String) (key : κ)
  | delivered (scope : String) (key : κ) (count : Nat)
  | publishFailed (scope : String) (key : κ) (error : String)
  deriving DecidableEq

def HubNotice.record : HubNotice String String → LogRecord
  | .ofCache name notice => notice.record name
  | .registered name scope =>
    ⟨.debug, "repository registered for change notifications",
      [("cache", name), ("scope", scope)]⟩
  | .changeRefused name scope key e =>
    ⟨.warn, "listener failed to handle change",
      [("cache", name), ("scope", scope), ("key", Text.quoted key), ("error", e)]⟩
  | .changeCrashed name scope key =>
    ⟨.error, "listener panicked while handling change",
      [("cache", name), ("scope", scope), ("key", Text.quoted key)]⟩
  | .delivered scope key count =>
    ⟨.debug, "change delivered",
      [("scope", scope), ("key", Text.quoted key), ("notified", toString count)]⟩
  | .publishFailed scope key e =>
    ⟨.warn, "failed to publish change to remote peers",
      [("scope", scope), ("key", Text.quoted key), ("error", e)]⟩

/-- The caches, listeners, registries and broadcasters of one process. What a search has found is
kept under a name until it is let go. -/
structure Hub (ι κ ν ε ω : Type) where
  caches : Arena (Cache ι κ ν ε ω)
  listeners : Arena (Listener κ)
  references : References (Subscriber ι κ ν ε ω)
  cacheHandles : Table String (Ref (Cache ι κ ν ε ω))
  listenerHandles : Table String (Ref (Listener κ))
  kept : Table String (List (Subscriber ι κ ν ε ω))
  registries : Table String (Registry (Subscriber ι κ ν ε ω))
  broadcasters : Table String (Broadcaster κ)

namespace Hub

variable {ι κ ν ε ω : Type}

def empty : Hub ι κ ν ε ω :=
  ⟨.empty, .empty, .empty, .empty, .empty, .empty, .empty, .empty⟩

instance : Inhabited (Hub ι κ ν ε ω) := ⟨empty⟩

def isAlive (h : Hub ι κ ν ε ω) (s : Subscriber ι κ ν ε ω) : Bool :=
  decide (0 < h.references.count s)

/-- The scope that a subscriber listens to, while it is alive. -/
def scopeOf (h : Hub ι κ ν ε ω) (s : Subscriber ι κ ν ε ω) : Option String :=
  if h.isAlive s then
    match s with
    | .cache r => (h.caches.get? r).map (·.scope)
    | .listener r => (h.listeners.get? r).map (·.scope)
  else none

def nameOf (h : Hub ι κ ν ε ω) : Subscriber ι κ ν ε ω → String
  | .cache r => ((h.caches.get? r).map (·.name)).getD ""
  | .listener r => ((h.listeners.get? r).map (·.name)).getD ""

def setCache (h : Hub ι κ ν ε ω) (r : Ref (Cache ι κ ν ε ω)) (c : Cache ι κ ν ε ω) :
    Hub ι κ ν ε ω :=
  { h with caches := h.caches.modify r fun _ => c }

/-- Put a cache back, with so many new references to it, and so many given up. -/
def replace (h : Hub ι κ ν ε ω) (r : Ref (Cache ι κ ν ε ω)) (c : Cache ι κ ν ε ω)
    (taken given : Nat) : Hub ι κ ν ε ω :=
  { h.setCache r c with
    references := (h.references.retain (.cache r) taken).release (.cache r) given }

/-- The cache that a name stands for. -/
def heldCache (h : Hub ι κ ν ε ω) (handle : String) : List (Subscriber ι κ ν ε ω) :=
  (h.cacheHandles.get? handle).toList.map .cache

def heldListener (h : Hub ι κ ν ε ω) (handle : String) : List (Subscriber ι κ ν ε ω) :=
  (h.listenerHandles.get? handle).toList.map .listener

/-- Give out another handle on a subscriber, under a name that may have stood for another one. -/
def hold (h : Hub ι κ ν ε ω) (handle : String) : Subscriber ι κ ν ε ω → Hub ι κ ν ε ω
  | .cache r =>
    { h with
      references := (h.references.retain (.cache r) 1).releaseAll (h.heldCache handle)
      cacheHandles := h.cacheHandles.put handle r }
  | .listener r =>
    { h with
      references := (h.references.retain (.listener r) 1).releaseAll (h.heldListener handle)
      listenerHandles := h.listenerHandles.put handle r }

def addCache (h : Hub ι κ ν ε ω) (handle : String) (c : Cache ι κ ν ε ω) : Hub ι κ ν ε ω :=
  { h with caches := h.caches.add c }.hold handle (.cache h.caches.next)

def addListener (h : Hub ι κ ν ε ω) (handle : String) (l : Listener κ) : Hub ι κ ν ε ω :=
  { h with listeners := h.listeners.add l }.hold handle (.listener h.listeners.next)

/-- Drop the handles of this name; whether there were any. -/
def dropHandle (h : Hub ι κ ν ε ω) (handle : String) : Bool × Hub ι κ ν ε ω :=
  (h.cacheHandles.contains handle || h.listenerHandles.contains handle,
    { h with
      references := h.references.releaseAll (h.heldCache handle ++ h.heldListener handle)
      cacheHandles := h.cacheHandles.erase handle
      listenerHandles := h.listenerHandles.erase handle })

def registry (h : Hub ι κ ν ε ω) (name : String) : Registry (Subscriber ι κ ν ε ω) :=
  h.registries.getD name .empty

def register (h : Hub ι κ ν ε ω) (name : String) (s : Subscriber ι κ ν ε ω) : Hub ι κ ν ε ω :=
  { h with registries := h.registries.put name ((h.registry name).register s) }

def addBroadcaster (h : Hub ι κ ν ε ω) (name registry : String) (peers : Peers) :
    Hub ι κ ν ε ω :=
  { h with broadcasters := h.broadcasters.put name ⟨registry, peers, []⟩ }

/-- The living subscribers of a scope, in order of registration, with a reference to each. -/
def subscribersTo (h : Hub ι κ ν ε ω) (name scope : String) :
    List (Subscriber ι κ ν ε ω) × Hub ι κ ν ε ω :=
  let (found, registry) := (h.registry name).subscribersTo h.scopeOf scope
  (found,
    { h with
      references := h.references.retainAll found
      registries := h.registries.put name registry })

/-- Search for the living subscribers of a scope, and let go of them. -/
def search (h : Hub ι κ ν ε ω) (name scope : String) :
    List (Subscriber ι κ ν ε ω) × Hub ι κ ν ε ω :=
  let (found, h) := h.subscribersTo name scope
  (found, { h with references := h.references.releaseAll found })

def keptUnder (h : Hub ι κ ν ε ω) (slot : String) : List (Subscriber ι κ ν ε ω) :=
  h.kept.getD slot []

/-- Search for the living subscribers of a scope, and keep them in place of those kept before. -/
def keep (h : Hub ι κ ν ε ω) (slot name scope : String) : Hub ι κ ν ε ω :=
  let (found, h) := h.subscribersTo name scope
  { h with
    references := h.references.releaseAll (h.keptUnder slot)
    kept := h.kept.put slot found }

def letGo (h : Hub ι κ ν ε ω) (slot : String) : Hub ι κ ν ε ω :=
  { h with
    references := h.references.releaseAll (h.keptUnder slot)
    kept := h.kept.erase slot }

/-- One thing done to spread a change. -/
inductive Act (ι κ ν ε ω : Type) where
  | tell (s : Subscriber ι κ ν ε ω) (scope : String) (key : κ)
  | publish (broadcaster scope : String) (key : κ)
  deriving DecidableEq

/-- What telling subscribers of a change has done besides changing the hub. -/
structure Told (ι κ ν ε ω : Type) where
  hub : Hub ι κ ν ε ω
  notices : List (HubNotice κ ε) := []
  acts : List (Act ι κ ν ε ω) := []
  spawned : List (Ref (Cache ι κ ν ε ω) × Nat) := []

variable [DecidableEq κ]

/-- Tell a cache that the value behind a key may have changed; nothing if it crashes over
that, which leaves everything as it was. A renewal that this schedules refers to the cache. -/
def tellCache (h : Hub ι κ ν ε ω) (r : Ref (Cache ι κ ν ε ω)) (key : κ) (now : Instant) :
    Option (Told ι κ ν ε ω) :=
  match h.caches.get? r with
  | none => some { hub := h }
  | some c =>
    (c.change key now).map fun s =>
      { hub := h.replace r s.cache s.spawned.isSome.toNat 0
        notices := [.ofCache c.name s.notice]
        spawned := s.spawned.toList.map fun id => (r, id) }

def tellListener (h : Hub ι κ ν ε ω) (r : Ref (Listener κ)) (key : κ) :
    Verdict × Hub ι κ ν ε ω :=
  let manner := ((h.listeners.get? r).map (·.manner)).getD .accepts
  let verdict := match manner with
    | .accepts => .accepted
    | .refuses => .refused "listener refused"
    | .crashes => .crashed
  (verdict,
    { h with listeners := h.listeners.modify r fun l => { l with heard := l.heard ++ [key] } })

def verdictNotices (name scope : String) (key : κ) : Verdict → List (HubNotice κ ε)
  | .accepted => []
  | .refused e => [.changeRefused name scope key e]
  | .crashed => [.changeCrashed name scope key]

/-- Tell one subscriber of a change, on top of what has been done before. -/
def inform (scope : String) (key : κ) (now : Instant) (t : Told ι κ ν ε ω) :
    Subscriber ι κ ν ε ω → Verdict × Told ι κ ν ε ω
  | .cache r =>
    match t.hub.tellCache r key now with
    | some s =>
      (.accepted,
        { t with
          hub := s.hub
          notices := t.notices ++ s.notices
          spawned := t.spawned ++ s.spawned })
    | none =>
      let name := t.hub.nameOf (.cache r)
      (.crashed, { t with notices := t.notices ++ verdictNotices name scope key .crashed })
  | .listener r =>
    let (verdict, hub) := t.hub.tellListener r key
    let name := t.hub.nameOf (.listener r)
    (verdict,
      { t with hub := hub, notices := t.notices ++ verdictNotices name scope key verdict })

/-- Tell a subscriber of a change that a search has found, and let go of it. -/
def tell (scope : String) (key : κ) (now : Instant) (t : Told ι κ ν ε ω)
    (s : Subscriber ι κ ν ε ω) : Verdict × Told ι κ ν ε ω :=
  let (verdict, t) := inform scope key now t s
  (verdict,
    { t with
      hub := { t.hub with references := t.hub.references.release s 1 }
      acts := t.acts ++ [.tell s scope key] })

/-- Deliver a change to the living subscribers of its scope, and count those that have
accepted it. -/
def deliverLocally (h : Hub ι κ ν ε ω) (registry scope : String) (key : κ) (now : Instant) :
    List (Subscriber ι κ ν ε ω × Verdict) × Told ι κ ν ε ω :=
  let (found, h) := h.subscribersTo registry scope
  let (verdicts, t) := deliver (tell scope key now) found { hub := h }
  (verdicts, { t with notices := t.notices ++ [.delivered scope key (accepted verdicts)] })

/-- Apply a change that a peer has published. -/
def relay (h : Hub ι κ ν ε ω) (b : Broadcaster κ) (scope : String) (key : κ) (now : Instant) :
    List (Subscriber ι κ ν ε ω × Verdict) × Told ι κ ν ε ω :=
  h.deliverLocally b.registry scope key now

/-- How publishing a change ends: quietly, with a failure to report, or in a crash. -/
inductive Publication where
  | done
  | failed (error : String)
  | crashed (text : String)
  deriving DecidableEq

/-- Hand a change to the peers of a broadcaster. -/
def publish (b : Broadcaster κ) (scope : String) (key : κ) : Publication × Broadcaster κ :=
  let recorded := { b with published := b.published ++ [(scope, key)] }
  match b.peers with
  | .nobody => (.done, b)
  | .listening => (.done, recorded)
  | .refusing => (.failed "transport down", recorded)
  | .crashing => (.crashed "transport blew up", recorded)

def publicationNotices (scope : String) (key : κ) : Publication → List (HubNotice κ ε)
  | .failed e => [.publishFailed scope key e]
  | _ => []

/-- What announcing a change has done. -/
structure Announced (ι κ ν ε ω : Type) where
  verdicts : List (Subscriber ι κ ν ε ω × Verdict)
  publication : Publication
  told : Told ι κ ν ε ω

/-- What announcing a change answers: how many have accepted it, or the text of the crash that
publishing it has ended in. -/
def Announced.answer (a : Announced ι κ ν ε ω) : Except String Nat :=
  match a.publication with
  | .crashed text => .error text
  | _ => .ok (accepted a.verdicts)

/-- Hand a change to the peers of a broadcaster, on top of what has been done before. -/
def pass (name : String) (b : Broadcaster κ) (scope : String) (key : κ) (t : Told ι κ ν ε ω) :
    Publication × Told ι κ ν ε ω :=
  let (publication, b) := publish b scope key
  (publication,
    { t with
      hub := { t.hub with broadcasters := t.hub.broadcasters.put name b }
      notices := t.notices ++ publicationNotices scope key publication
      acts := t.acts ++ [.publish name scope key] })

/-- Announce a change made here: deliver it, then publish it whatever came of that. -/
def announce (h : Hub ι κ ν ε ω) (name : String) (b : Broadcaster κ) (scope : String) (key : κ)
    (now : Instant) : Announced ι κ ν ε ω :=
  let (verdicts, t) := h.deliverLocally b.registry scope key now
  let (publication, t) := pass name b scope key t
  ⟨verdicts, publication, t⟩

def fetchPublished (h : Hub ι κ ν ε ω) (name : String) :
    List (String × κ) × Hub ι κ ν ε ω :=
  match h.broadcasters.get? name with
  | none => ([], h)
  | some b =>
    (b.published, { h with broadcasters := h.broadcasters.put name { b with published := [] } })

/-- Run a renewal on, which refers to its cache until it has ended. -/
def runRenewal (h : Hub ι κ ν ε ω) (r : Ref (Cache ι κ ν ε ω)) (c : Cache ι κ ν ε ω) (id : Nat)
    (now : Instant) (reply : Reply ν ε) :
    Option (Cache.RenewalRun ι κ ν ε ω × Hub ι κ ν ε ω) :=
  (c.runRenewal id now reply).map fun v => (v, h.replace r v.cache 0 v.ended.isSome.toNat)

def dropRenewal (h : Hub ι κ ν ε ω) (r : Ref (Cache ι κ ν ε ω)) (c : Cache ι κ ν ε ω)
    (id : Nat) : Hub ι κ ν ε ω :=
  match c.renewals.get? id with
  | some q => h.replace r (c.closeRenewal id q) 0 1
  | none => h

variable [DecidableEq ι] [DecidableEq ω]

/-- Give a get up, if there is one of this name. -/
def dropCall (h : Hub ι κ ν ε ω) (r : Ref (Cache ι κ ν ε ω)) (c : Cache ι κ ν ε ω) (id : ι) :
    List ω × Hub ι κ ν ε ω :=
  let (woken, c') := c.dropCall id
  (woken, h.replace r c' 0 (c.session.calls.contains id).toNat)

/-- Begin a get, in place of a former one of the same name, and poll it once. It refers to the cache
until it is over, and so does a renewal that it has scheduled. -/
def get (h : Hub ι κ ν ε ω) (r : Ref (Cache ι κ ν ε ω)) (c : Cache ι κ ν ε ω) (id : ι) (k : κ)
    (now : Instant) (waker : ω) (reply : Reply ν ε) :
    Cache.Served ι κ ν ε ω × Hub ι κ ν ε ω :=
  let v := c.get id k now waker reply
  let taken := v.spawned.isSome.toNat + 1
  let given := (Cache.isOver v.outcome).toNat + (c.session.calls.contains id).toNat
  (v, h.replace r v.cache taken given)

def poll (h : Hub ι κ ν ε ω) (r : Ref (Cache ι κ ν ε ω)) (c : Cache ι κ ν ε ω) (id : ι)
    (now : Instant) (waker : ω) (reply : Reply ν ε) :
    Option (Cache.Served ι κ ν ε ω × Hub ι κ ν ε ω) :=
  (c.poll id now waker reply).map fun v =>
    (v, h.replace r v.cache v.spawned.isSome.toNat (Cache.isOver v.outcome).toNat)

end Hub

end ReadThrough
