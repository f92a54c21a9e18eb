import ReadThrough.Lease.Token

/-!
# The lease of an entry as one machine word

Whether an entry is being renewed, and by whom, is kept in a single 64-bit word:
the stage in the two low bits, the token of its holder above them, and zero for an
idle entry. Each step compares the whole word with the one it expects and leaves a
different word alone.
-/

namespace ReadThrough

/-- Where an entry stands in its renewal. -/
inductive Stage where
  | idle
  | scheduled
  | running
  deriving DecidableEq

/-- The low two bits of a word in this stage. -/
def Stage.tag : Stage → UInt64
  | .idle => 0
  | .scheduled => 1
  | .running => 2

/-- A token and a stage packed into 64 bits. -/
@[ext]
structure LeaseWord where
  bits : UInt64
  deriving DecidableEq

namespace LeaseWord

def idle : LeaseWord := ⟨0⟩

/-- The word of an entry whose renewal under `t` has reached `stage`. -/
def pack (t : Token) (stage : Stage) : LeaseWord := ⟨t.val <<< 2 ||| stage.tag⟩

def stage (w : LeaseWord) : Stage :=
  let tag := w.bits &&& 3
  if tag = Stage.scheduled.tag then .scheduled
  else if tag = Stage.running.tag then .running
  else .idle

/-- Take an idle entry for `t`; `none` when somebody holds it. -/
def schedule (w : LeaseWord) (t : Token) : Option LeaseWord :=
  if w = idle then some (pack t .scheduled) else none

/-- Start the renewal that `t` has scheduled; `none` when `t` has not. -/
def start (w : LeaseWord) (t : Token) : Option LeaseWord :=
  if w = pack t .scheduled then some (pack t .running) else none

/-- Give the entry back if `t` holds it. -/
def release (w : LeaseWord) (t : Token) : LeaseWord :=
  if w = pack t .running then idle
  else if w = pack t .scheduled then idle
  else w

end LeaseWord

end ReadThrough
