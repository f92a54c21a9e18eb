import ReadThrough.Arena
import ReadThrough.Store.Entry
import ReadThrough.Flight
import ReadThrough.Table

/-!
# The sharded store

A store spreads its keys over a power of two of shards by the low bits of their
hashes. A shard knows which entry is stored for a key, when that entry expires, and
which flight is loading the key. Entries and flights are cells with an identity, so
that "the very same entry" means something after its key has been stored anew.

Expired entries stay resident until something else is stored in their shard; they are
never found by `live?`.
-/

namespace ReadThrough

/-- One part of a store: the entry stored for each key, when it expires, and the flight that is
loading the key. -/
structure Shard (κ ν ε ω : Type) where
  slots : Table κ (Ref (Entry ν))
  deadlines : Table κ Instant
  flights : Table κ (Ref (Flight ε ω))

namespace Shard

variable {κ ν ε ω : Type}

def empty : Shard κ ν ε ω := ⟨.empty, .empty, .empty⟩

instance : Inhabited (Shard κ ν ε ω) := ⟨empty⟩

/-- Drop every entry, leaving the flights alone. -/
def cleared (s : Shard κ ν ε ω) : Shard κ ν ε ω :=
  { s with slots := .empty, deadlines := .empty }

end Shard

/-- How many shards the low `bits` bits of a hash tell apart. -/
def shardCount (bits : Nat) : Nat := 1 <<< bits

theorem shardCount_pos (bits : Nat) : 0 < shardCount bits := by
  unfold shardCount
  rw [Nat.one_shiftLeft]
  exact Nat.two_pow_pos bits

/-- Entries by key, spread over shards, with the loads in flight. -/
structure Store (κ ν ε ω : Type) where
  hash : κ → UInt64
  timeToLive : Span
  capacity : Option Nat
  shardBits : Nat
  shards : Vector (Shard κ ν ε ω) (shardCount shardBits)
  entries : Arena (Entry ν)
  flights : Arena (Flight ε ω)

namespace Store

variable {κ ν ε ω : Type}

/-- The index of the shard that a key belongs to, cut from its hash by a mask. -/
def home (s : Store κ ν ε ω) (k : κ) : Fin (shardCount s.shardBits) :=
  ⟨(s.hash k).toNat &&& (shardCount s.shardBits - 1),
    Nat.lt_of_le_of_lt Nat.and_le_right (Nat.sub_lt (shardCount_pos _) Nat.one_pos)⟩

theorem get_setShard {n : Nat} (shards : Vector (Shard κ ν ε ω) n) (i j : Fin n)
    (sh : Shard κ ν ε ω) :
    (shards.set i sh).get j = if i.val = j.val then sh else shards.get j :=
  Vector.getElem_set _ _

theorem get_mapShards {n : Nat} (shards : Vector (Shard κ ν ε ω) n) (i : Fin n)
    (f : Shard κ ν ε ω → Shard κ ν ε ω) : (shards.map f).get i = f (shards.get i) :=
  Vector.getElem_map _ _

def shardOf (s : Store κ ν ε ω) (k : κ) : Shard κ ν ε ω := s.shards[s.home k]

def modifyShard (s : Store κ ν ε ω) (k : κ) (f : Shard κ ν ε ω → Shard κ ν ε ω) :
    Store κ ν ε ω :=
  { s with shards := s.shards.set (s.home k) (f (s.shardOf k)) }

theorem shardOf_modifyShard (s : Store κ ν ε ω) (k j : κ) (f : Shard κ ν ε ω → Shard κ ν ε ω) :
    (s.modifyShard k f).shardOf j =
      if s.home j = s.home k then f (s.shardOf k) else s.shardOf j := by
  have h : (s.modifyShard k f).shardOf j
      = (s.shards.set (s.home k) (f (s.shardOf k)))[(s.home j).val] := rfl
  rw [h, Vector.getElem_set]
  by_cases hj : s.home j = s.home k
  · simp [hj]
  · have hne : ¬ (s.home k).val = (s.home j).val := fun e => hj (Fin.ext e.symm)
    simp [hj, hne, shardOf]

def entryAt? (s : Store κ ν ε ω) (r : Ref (Entry ν)) : Option (Entry ν) := s.entries.get? r

def flight (s : Store κ ν ε ω) (f : Ref (Flight ε ω)) : Flight ε ω :=
  (s.flights.get? f).getD .started

def modifyEntry (s : Store κ ν ε ω) (r : Ref (Entry ν)) (f : Entry ν → Entry ν) :
    Store κ ν ε ω :=
  { s with entries := s.entries.modify r f }

/-- The number of resident entries, expired ones included. -/
def size (s : Store κ ν ε ω) : Nat :=
  s.shards.toList.foldr (fun sh n => sh.slots.size + n) 0

def isEmpty (s : Store κ ν ε ω) : Bool := s.size == 0

/-- Remove every entry. Loads in flight go on and will store their results. -/
def clear (s : Store κ ν ε ω) : Store κ ν ε ω := { s with shards := s.shards.map Shard.cleared }

theorem shardOf_clear (s : Store κ ν ε ω) (k : κ) : s.clear.shardOf k = (s.shardOf k).cleared :=
  Vector.getElem_map _ _

variable [DecidableEq κ]

/-- The entry stored for `k`, expired or not. -/
def slot? (s : Store κ ν ε ω) (k : κ) : Option (Ref (Entry ν)) := (s.shardOf k).slots.get? k

/-- The flight registered for `k`. -/
def flight? (s : Store κ ν ε ω) (k : κ) : Option (Ref (Flight ε ω)) :=
  (s.shardOf k).flights.get? k

def isLive (s : Store κ ν ε ω) (now : Instant) (r : Ref (Entry ν)) : Bool :=
  (s.entryAt? r).any fun e => !e.hasExpired now

/-- The entry stored for `k`, unless it has expired. -/
def live? (s : Store κ ν ε ω) (k : κ) (now : Instant) : Option (Ref (Entry ν)) :=
  (s.slot? k).filter (s.isLive now)

/-- A change to the shard of `k` that keeps what one of its tables has for all other keys. -/
theorem get?_modifyShard {α : Type} {s : Store κ ν ε ω} {k : κ}
    {f : Shard κ ν ε ω → Shard κ ν ε ω} {table : Shard κ ν ε ω → Table κ α}
    (h : ∀ sh j, j ≠ k → (table (f sh)).get? j = (table sh).get? j) (j : κ) :
    (table ((s.modifyShard k f).shardOf j)).get? j =
      if j = k then (table (f (s.shardOf k))).get? k else (table (s.shardOf j)).get? j := by
  rw [shardOf_modifyShard]
  by_cases hj : j = k
  · subst hj
    simp
  · by_cases hh : s.home j = s.home k
    · have hs : s.shardOf j = s.shardOf k := by simp only [shardOf, hh]
      simp [hj, hh, h _ j hj, hs]
    · simp [hj, hh]

theorem slot?_modifyShard {s : Store κ ν ε ω} {k : κ} {f : Shard κ ν ε ω → Shard κ ν ε ω}
    (h : ∀ sh j, j ≠ k → (f sh).slots.get? j = sh.slots.get? j) (j : κ) :
    (s.modifyShard k f).slot? j =
      if j = k then (f (s.shardOf k)).slots.get? k else s.slot? j :=
  get?_modifyShard h j

theorem flight?_modifyShard {s : Store κ ν ε ω} {k : κ} {f : Shard κ ν ε ω → Shard κ ν ε ω}
    (h : ∀ sh j, j ≠ k → (f sh).flights.get? j = sh.flights.get? j) (j : κ) :
    (s.modifyShard k f).flight? j =
      if j = k then (f (s.shardOf k)).flights.get? k else s.flight? j :=
  get?_modifyShard h j

/-- Whether `r` is the very entry that is stored for `k`. -/
def holds (s : Store κ ν ε ω) (k : κ) (r : Ref (Entry ν)) : Bool := decide (s.slot? k = some r)

/-- Forget the entry of `k` together with its deadline. -/
def forget (s : Store κ ν ε ω) (k : κ) : Store κ ν ε ω :=
  s.modifyShard k fun sh =>
    { sh with slots := sh.slots.erase k, deadlines := sh.deadlines.erase k }

theorem slot?_forget (s : Store κ ν ε ω) (k j : κ) :
    (s.forget k).slot? j = if j = k then none else s.slot? j := by
  unfold forget
  rw [slot?_modifyShard]
  · simp [Table.get?_erase]
  · intro sh i hi
    simp [Table.get?_erase, hi]

/-- Remove the entry of `k`, live or expired, and say which it was. -/
def remove (s : Store κ ν ε ω) (k : κ) : Option (Ref (Entry ν)) × Store κ ν ε ω :=
  match s.slot? k with
  | some r => (some r, s.forget k)
  | none => (none, s)

/-- Remove `current` from `k`, unless something else is stored there by now. -/
def removeIfSame (s : Store κ ν ε ω) (k : κ) (current : Ref (Entry ν)) :
    Bool × Store κ ν ε ω :=
  if s.holds k current then (true, s.forget k) else (false, s)

def register (s : Store κ ν ε ω) (k : κ) : Ref (Flight ε ω) × Store κ ν ε ω :=
  let f := s.flights.next
  (f, { s.modifyShard k fun sh => { sh with flights := sh.flights.put k f } with
        flights := s.flights.add .started })

theorem flight?_register (s : Store κ ν ε ω) (k j : κ) :
    (s.register k).2.flight? j = if j = k then some (s.register k).1 else s.flight? j := by
  have h : (s.register k).2.flight? j
      = (s.modifyShard k fun sh =>
          { sh with flights := sh.flights.put k s.flights.next }).flight? j := rfl
  rw [h, flight?_modifyShard]
  · simp [Table.get?_put, register]
  · intro sh i hi
    simp [Table.get?_put, hi]

/-- Take `f` off the register of `k`, if it is still the flight registered there. -/
def retire (s : Store κ ν ε ω) (k : κ) (f : Ref (Flight ε ω)) : Store κ ν ε ω :=
  if s.flight? k = some f then
    s.modifyShard k fun sh => { sh with flights := sh.flights.erase k }
  else s

theorem flight?_retire (s : Store κ ν ε ω) (k j : κ) (f : Ref (Flight ε ω)) :
    (s.retire k f).flight? j =
      if j = k then (s.flight? k).filter (fun g => decide (g ≠ f)) else s.flight? j := by
  unfold retire
  by_cases hf : s.flight? k = some f
  · rw [if_pos hf, flight?_modifyShard]
    · simp [Table.get?_erase, hf, Option.filter]
    · intro sh i hi
      simp [Table.get?_erase, hi]
  · rw [if_neg hf]
    by_cases hj : j = k
    · subst hj
      cases hg : s.flight? j with
      | none => simp
      | some g =>
        have hne : g ≠ f := fun e => hf (e ▸ hg)
        simp [Option.filter, hne]
    · simp [hj]

def land (s : Store κ ν ε ω) (f : Ref (Flight ε ω)) (landing : Landing ε) :
    List ω × Store κ ν ε ω :=
  let r := (s.flight f).land landing
  (r.1, { s with flights := s.flights.modify f fun _ => r.2 })

end Store

end ReadThrough
