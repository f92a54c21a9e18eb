import ReadThrough.Proofs.Cache.Ledger
import ReadThrough.Proofs.Cache.Leases

/-!
# What is under way on a cache

Gets are under way until they are over, and renewals until they have ended. Each operation tells how
many have come and how many are gone, and some tell which one it is that has begun or has come to
its end.
-/

namespace ReadThrough.Cache

/-- A get or a renewal of some cache. -/
inductive Work (ι : Type) where
  | get (id : ι)
  | renewal (number : Nat)

variable {ι κ ν ε ω : Type} {c c' : Cache ι κ ν ε ω} {n : Nat} {now : Instant} {reply : Reply ν ε}

section Amounts

/-- The number of gets and renewals under way. -/
def underWay (c : Cache ι κ ν ε ω) : Nat := c.session.calls.size + c.renewals.size

theorem underWay_closeRenewal {q : Renewal κ ν} (outstanding : c.renewals.get? n = some q) :
    (c.closeRenewal n q).underWay + 1 = c.underWay := by
  have hsize := Table.size_erase_of_present outstanding
  have hclosed : (c.closeRenewal n q).underWay =
      c.session.calls.size + (c.renewals.erase n).size := rfl
  rw [hclosed, underWay]
  omega

variable [DecidableEq κ]

theorem underWay_change {k : κ} {s : Scheduling ι κ ν ε ω} (hleases : c.LeasesHeld)
    (reaction : c.change k now = some s) :
    s.cache.underWay = c.underWay + s.spawned.isSome.toNat := by
  obtain ⟨c', hbooked, hrenewals, -⟩ := booked_change reaction
  have hsize := hbooked.size_eq hleases.get?_nextRenewal
  rw [underWay, underWay, (quiet_change reaction).calls_eq, ← hrenewals, hsize, Nat.add_assoc]

theorem underWay_runRenewal {run : RenewalRun ι κ ν ε ω}
    (result : c.runRenewal n now reply = some run) :
    run.cache.underWay + run.ended.isSome.toNat = c.underWay := by
  have hsize := (closed_runRenewal result).size_eq
  rw [underWay, underWay, (quiet_runRenewal result).calls_eq, ← hsize, Nat.add_assoc]

variable [DecidableEq ι] [DecidableEq ω]

omit [DecidableEq ω] in
theorem underWay_dropCall (c : Cache ι κ ν ε ω) (id : ι) :
    (c.dropCall id).2.underWay + (c.session.calls.contains id).toNat = c.underWay := by
  have hsize := Table.size_of_update_none (c.session.get?_drop id)
  have hdropped : (c.dropCall id).2.underWay =
      (c.session.drop id).2.calls.size + c.renewals.size := rfl
  rw [hdropped, underWay]
  omega

theorem underWay_pollCall (hleases : c.LeasesHeld) (id : ι) (call : Call κ ε ω) (now : Instant)
    (waker : ω) (reply : Reply ν ε) :
    let served := c.pollCall id call now waker reply
    served.cache.underWay + (isOver served.outcome).toNat + (c.session.calls.contains id).toNat =
      c.underWay + served.spawned.isSome.toNat + 1 := by
  intro served
  have hcalls : served.cache.session.calls.get? = _ := c.calls_pollCall id call now waker reply
  have houtcome : served.outcome = _ := c.outcome_pollCall id call
  have hrenewals : served.cache.renewals.size =
      c.renewals.size + served.spawned.isSome.toNat :=
    (c.booked_pollCall id call now waker reply).size_eq hleases.get?_nextRenewal
  rw [← houtcome] at hcalls
  rw [underWay, underWay, hrenewals]
  cases hover : isOver served.outcome with
  | true =>
    rw [hover, if_pos rfl] at hcalls
    have hsize := Table.size_of_update_none hcalls
    rw [Bool.toNat_true]
    omega
  | false =>
    rw [hover, if_neg Bool.false_ne_true] at hcalls
    have hsize := Table.size_of_update_some hcalls
    rw [Bool.toNat_false]
    omega

/-- A get replaces a former one of the same name. -/
theorem underWay_get (hleases : c.LeasesHeld) (id : ι) (k : κ) (waker : ω) :
    let served := c.get id k now waker reply
    served.cache.underWay + (isOver served.outcome).toNat + (c.session.calls.contains id).toNat =
      c.underWay + served.spawned.isSome.toNat + 1 := by
  have hbegun : (c.beginGet id).LeasesHeld := (c.spares_dropCall id).leasesHeld hleases
  have habsent : (c.beginGet id).session.calls.contains id = false := by
    have hcalls : (c.beginGet id).session.calls.get? = _ := c.session.get?_drop id
    rw [Table.contains, hcalls, Function.update_self]
    rfl
  have hpolled := underWay_pollCall hbegun id (.start k) now waker reply
  have hdropped : (c.beginGet id).underWay + _ = c.underWay := c.underWay_dropCall id
  rw [habsent] at hpolled
  rw [get_eq]
  simp only [Bool.toNat_false] at hpolled ⊢
  omega

end Amounts

section Ends

variable [DecidableEq ι]

def isAt (c : Cache ι κ ν ε ω) : Work ι → Bool
  | .get id => c.session.calls.contains id
  | .renewal number => c.renewals.contains number

theorem underWay_pos_iff : 0 < c.underWay ↔ ∃ w, c.isAt w = true := by
  have hcalls : 0 < c.session.calls.size ↔ ∃ id, c.isAt (.get id) = true := by
    simp only [Table.size_pos_iff, isAt, Table.contains, Option.isSome_iff_exists]
  have hrenewals : 0 < c.renewals.size ↔ ∃ number, c.isAt (.renewal number) = true := by
    simp only [Table.size_pos_iff, isAt, Table.contains, Option.isSome_iff_exists]
  rw [underWay, Nat.add_pos_iff_pos_or_pos, hcalls, hrenewals]
  constructor
  · rintro (⟨id, hid⟩ | ⟨number, hnumber⟩)
    · exact ⟨_, hid⟩
    · exact ⟨_, hnumber⟩
  · rintro ⟨id | number, hw⟩
    · exact .inl ⟨id, hw⟩
    · exact .inr ⟨number, hw⟩

variable [DecidableEq κ] [DecidableEq ω]

/-- The event begins a get that is not over at once, or has a renewal scheduled. -/
inductive Initiates (c : Cache ι κ ν ε ω) (now : Instant) :
    CacheEvent ι κ ν ε ω → Work ι → Prop where
  | get {id : ι} {key : κ} {waker : ω} {reply : Reply ν ε}
      (pending : isOver (c.get id key now waker reply).outcome = false) :
      Initiates c now (.get id key waker reply) (.get id)
  | scheduledByGet {id : ι} {key : κ} {waker : ω} {reply : Reply ν ε} {number : Nat}
      (spawned : (c.get id key now waker reply).spawned = some number) :
      Initiates c now (.get id key waker reply) (.renewal number)
  | scheduledByPoll {id : ι} {waker : ω} {reply : Reply ν ε} {served : Served ι κ ν ε ω}
      {number : Nat} (result : c.poll id now waker reply = some served)
      (spawned : served.spawned = some number) :
      Initiates c now (.poll id waker reply) (.renewal number)
  | scheduledByChange {key : κ} {s : Scheduling ι κ ν ε ω} {number : Nat}
      (reaction : c.change key now = some s) (spawned : s.spawned = some number) :
      Initiates c now (.change key) (.renewal number)

theorem Initiates.isAt {e : CacheEvent ι κ ν ε ω} {w : Work ι}
    (initiates : c.Initiates now e w) : (step ⟨now, c⟩ e).state.isAt w = true := by
  cases initiates with
  | @get id key waker reply pending =>
    have hcalls : (c.get id key now waker reply).cache.session.calls.get? = _ :=
      (c.beginGet id).calls_pollCall id (.start key) now waker reply
    have houtcome : (c.get id key now waker reply).outcome = _ :=
      (c.beginGet id).outcome_pollCall id (.start key)
    rw [← houtcome, pending, if_neg Bool.false_ne_true] at hcalls
    exact congrArg Option.isSome ((congrFun hcalls id).trans (Function.update_self ..))
  | @scheduledByGet id key waker reply number spawned =>
    have hbooked := (c.beginGet id).booked_pollCall id (.start key) now waker reply
    exact (hbooked.contains_iff number).mpr (.inr spawned)
  | @scheduledByPoll id waker reply served number result spawned =>
    obtain ⟨call, hcall, rfl⟩ := Option.map_eq_some_iff.mp result
    have hbooked := c.booked_pollCall id call now waker reply
    rw [step_poll (t := ⟨now, c⟩) hcall]
    exact (hbooked.contains_iff number).mpr (.inr spawned)
  | @scheduledByChange key s number reaction spawned =>
    obtain ⟨c', hbooked, hrenewals, -⟩ := booked_change reaction
    have hcontains := (hbooked.contains_iff number).mpr (.inr spawned)
    rw [hrenewals] at hcontains
    have hstep : (step ⟨now, c⟩ (.change key)).state = s.cache := by
      simp only [step, perform, reaction]
    rw [hstep]
    exact hcontains

/-- The event is the end of a get or of a renewal, which may leave a renewal behind. -/
inductive Finishes (c : Cache ι κ ν ε ω) (now : Instant) :
    CacheEvent ι κ ν ε ω → Work ι → Option Nat → Prop where
  | polled {id : ι} {waker : ω} {reply : Reply ν ε} {served : Served ι κ ν ε ω}
      (result : c.poll id now waker reply = some served) (ended : isOver served.outcome = true) :
      Finishes c now (.poll id waker reply) (.get id) served.spawned
  | givenUp (id : ι) : Finishes c now (.drop id) (.get id) none
  | ended {number : Nat} {reply : Reply ν ε} {run : RenewalRun ι κ ν ε ω}
      (result : c.runRenewal number now reply = some run) (ended : run.ended.isSome = true) :
      Finishes c now (.runRenewal number reply) (.renewal number) none
  | dropped (number : Nat) : Finishes c now (.dropRenewal number) (.renewal number) none

omit [DecidableEq κ] [DecidableEq ω] in
theorem isAt_of_calls {id : ι}
    (calls : c'.session.calls.get? = Function.update c.session.calls.get? id none) (i : ι) :
    c'.isAt (.get i) = true ↔ c.isAt (.get i) = true ∧ Work.get i ≠ .get id := by
  rw [isAt, isAt, Table.contains, Table.contains, calls, Ne, Work.get.injEq]
  by_cases hi : i = id
  · simp [hi]
  · simp [hi]

omit [DecidableEq κ] [DecidableEq ω] in
theorem isAt_of_renewals (renewals : c'.renewals = c.renewals.erase n) (m : Nat) :
    c'.isAt (.renewal m) = true ↔
      c.isAt (.renewal m) = true ∧ (Work.renewal m : Work ι) ≠ .renewal n := by
  rw [isAt, isAt, Table.contains, Table.contains, renewals, Table.get?_erase, Ne,
    Work.renewal.injEq]
  by_cases hm : m = n
  · simp [hm]
  · simp [hm]

theorem isAt_pollCall {id : ι} {call : Call κ ε ω} {waker : ω}
    (ended : isOver (c.pollCall id call now waker reply).outcome = true) (v : Work ι) :
    let served := c.pollCall id call now waker reply
    served.cache.isAt v = true ↔ c.isAt v = true ∧ v ≠ .get id ∨
      ∃ number, served.spawned = some number ∧ v = .renewal number := by
  intro served
  have hcalls : served.cache.session.calls.get? = _ := c.calls_pollCall id call now waker reply
  rw [← c.outcome_pollCall id call, if_pos ended] at hcalls
  have hrenewals : ∀ m, served.cache.renewals.contains m = true ↔
      c.renewals.contains m = true ∨ served.spawned = some m :=
    (c.booked_pollCall id call now waker reply).contains_iff
  cases v with
  | get i =>
    rw [isAt_of_calls hcalls]
    simp
  | renewal m =>
    refine (hrenewals m).trans ?_
    simp [isAt]

/-- What comes to its end is not under way any more. All else is. -/
theorem Finishes.isAt_iff {e : CacheEvent ι κ ν ε ω} {w : Work ι} {left : Option Nat}
    (finishes : c.Finishes now e w left) (v : Work ι) :
    (step ⟨now, c⟩ e).state.isAt v = true ↔
      c.isAt v = true ∧ v ≠ w ∨ ∃ number, left = some number ∧ v = .renewal number := by
  cases finishes with
  | @polled id waker reply served result ended =>
    obtain ⟨call, hcall, rfl⟩ := Option.map_eq_some_iff.mp result
    rw [step_poll (t := ⟨now, c⟩) hcall]
    exact isAt_pollCall ended v
  | givenUp id =>
    simp only [reduceCtorEq, false_and, exists_false, or_false]
    cases v with
    | get i => exact isAt_of_calls (c.session.get?_drop id) i
    | renewal m => exact (and_iff_left nofun).symm
  | @ended number reply run result ended =>
    simp only [reduceCtorEq, false_and, exists_false, or_false]
    rw [step_runRenewal (t := ⟨now, c⟩) result]
    cases v with
    | get i =>
      have hsame : run.cache.isAt (.get i) = c.isAt (.get i) :=
        congrArg (·.contains i) (quiet_runRenewal result).calls_eq
      rw [hsame]
      exact (and_iff_left nofun).symm
    | renewal m => exact isAt_of_renewals ((closed_runRenewal result).gone ended) m
  | dropped number =>
    simp only [reduceCtorEq, false_and, exists_false, or_false]
    cases hq : c.renewals.get? number with
    | none =>
      have hstep : (step ⟨now, c⟩ (.dropRenewal number)).state = c := by
        simp only [step, perform, hq]
      rw [hstep, iff_self_and]
      rintro hv rfl
      rw [isAt, Table.contains, hq] at hv
      cases hv
    | some q =>
      have hstep : (step ⟨now, c⟩ (.dropRenewal number)).state = c.closeRenewal number q := by
        simp only [step, perform, hq]
      rw [hstep]
      cases v with
      | get i => exact (and_iff_left nofun).symm
      | renewal m => exact isAt_of_renewals rfl m

end Ends

end ReadThrough.Cache
