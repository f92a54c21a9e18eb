import Mathlib.Data.Set.Function
import Mathlib.Order.Interval.Set.Defs
import Mathlib.Tactic.NormNum
import ReadThrough.Lease.Token

/-!
# Tokens come round in a cycle

A counter hands out the numbers of 62 bits one after the other, and passes from the last of them
to one. That holds wherever its 64 bits start, and goes on as they overflow. So a token comes again
only when all the others have been handed out since.
-/

namespace ReadThrough

/-- How many tokens there are: all numbers of 62 bits but zero. -/
def tokenCount : Nat := tokenLimit - 1

theorem Token.val_ne_zero (t : Token) : t.val ≠ 0 := by
  intro h
  have hpos := t.pos
  rw [h] at hpos
  exact absurd hpos (Nat.lt_irrefl 0)

namespace TokenCounter

/-- Going round without a bound, the loop hands out `t` in the `n`-th round, and leaves the counter
at `c'`. -/
inductive Draws : Nat → TokenCounter → Token → TokenCounter → Prop where
  | hit {c : TokenCounter} {t : Token} (low_eq : c.count &&& tokenMask = t.val) :
      Draws 1 c t ⟨c.count + 1⟩
  | skip {n : Nat} {c c' : TokenCounter} {t : Token} (low_eq : c.count &&& tokenMask = 0)
      (rest : Draws n ⟨c.count + 1⟩ t c') : Draws (n + 1) c t c'

variable {c c' d : TokenCounter} {t u : Token} {m n : Nat}

theorem next_of_low_eq (h : c.count &&& tokenMask = 0) : c.next = next ⟨c.count + 1⟩ := by
  rw [next, dif_pos h]

theorem next_of_low_ne (h : c.count &&& tokenMask ≠ 0) :
    ∃ t : Token, c.count &&& tokenMask = t.val ∧ c.next = (t, ⟨c.count + 1⟩) := by
  rw [next, dif_neg h]
  exact ⟨_, rfl, rfl⟩

/-- Of two counts in a row one gives a token. -/
theorem exists_draws (c : TokenCounter) : ∃ n ≤ 2, Draws n c c.next.1 c.next.2 := by
  by_cases h : c.count &&& tokenMask = 0
  · obtain ⟨t, ht, hnext⟩ := next_of_low_ne (succ_masked_ne_zero h)
    rw [next_of_low_eq h, hnext]
    exact ⟨2, Nat.le_refl 2, .skip h (.hit ht)⟩
  · obtain ⟨t, ht, hnext⟩ := next_of_low_ne h
    rw [hnext]
    exact ⟨1, Nat.le_succ 1, .hit ht⟩

theorem Draws.unique (h : Draws m c t c') (h' : Draws n c u d) : m = n ∧ t = u ∧ c' = d := by
  induction h generalizing n d with
  | hit low_eq =>
    cases h' with
    | hit low_eq' => exact ⟨rfl, Token.ext (low_eq.symm.trans low_eq'), rfl⟩
    | skip low_eq' => exact absurd (low_eq.symm.trans low_eq') (Token.val_ne_zero _)
  | skip low_eq _ ih =>
    cases h' with
    | hit low_eq' => exact absurd (low_eq'.symm.trans low_eq) u.val_ne_zero
    | skip _ rest' =>
      obtain ⟨rfl, rfl, rfl⟩ := ih rest'
      exact ⟨rfl, rfl, rfl⟩

theorem Draws.count_eq (h : Draws n c t c') : c'.count = c.count + UInt64.ofNat n := by
  induction h with
  | hit => rfl
  | skip _ _ ih => rw [ih, UInt64.ofNat_add, UInt64.add_assoc, UInt64.add_comm (UInt64.ofNat _)]; rfl

section Numbers

def low (c : TokenCounter) : Nat := c.count.toNat % tokenLimit

theorem low_eq_zero_iff : c.count &&& tokenMask = 0 ↔ c.low = 0 := by
  rw [← UInt64.toNat_inj, toNat_and_tokenMask]
  rfl

/-- An overflow of the count makes no difference to its low bits. -/
theorem low_succ (c : TokenCounter) : low ⟨c.count + 1⟩ = (c.low + 1) % tokenLimit := by
  simp only [low, tokenLimit, UInt64.toNat_add, UInt64.reduceToNat]
  omega

theorem Draws.val_eq (h : Draws n c t c') :
    t.val.toNat = (if c.low = 0 then 1 else c.low) ∧
      c'.low = (t.val.toNat + 1) % tokenLimit := by
  induction h with
  | @hit c t low_eq =>
    have hval : t.val.toNat = c.low := by
      rw [← low_eq, toNat_and_tokenMask]
      rfl
    have hne : c.low ≠ 0 := by
      rw [← hval]
      exact Nat.ne_of_gt t.pos
    rw [if_neg hne, hval, low_succ]
    exact ⟨rfl, rfl⟩
  | @skip n c c' t low_eq _ ih =>
    have hzero : c.low = 0 := low_eq_zero_iff.mp low_eq
    have hone : low ⟨c.count + 1⟩ = 1 := by
      rw [low_succ, hzero]
      rfl
    rw [hone, if_neg Nat.one_ne_zero] at ih
    rw [if_pos hzero]
    exact ih

end Numbers

def after (c : TokenCounter) : Nat → TokenCounter
  | 0 => c
  | n + 1 => (c.after n).next.2

def nth (c : TokenCounter) (n : Nat) : Token := (c.after n).next.1

theorem exists_draws_nth (c : TokenCounter) (n : Nat) :
    ∃ k ≤ 2, Draws k (c.after n) (c.nth n) (c.after (n + 1)) := exists_draws (c.after n)

theorem val_nth_zero (c : TokenCounter) :
    (c.nth 0).val.toNat = if c.low = 0 then 1 else c.low := by
  obtain ⟨k, -, hdraws⟩ := c.exists_draws_nth 0
  exact hdraws.val_eq.1

theorem val_nth_succ (c : TokenCounter) (n : Nat) : (c.nth (n + 1)).val.toNat =
    if (c.nth n).val.toNat = tokenCount then 1 else (c.nth n).val.toNat + 1 := by
  obtain ⟨k, -, hdraws⟩ := c.exists_draws_nth n
  obtain ⟨k', -, hdraws'⟩ := c.exists_draws_nth (n + 1)
  rw [hdraws'.val_eq.1, hdraws.val_eq.2]
  by_cases h : (c.nth n).val.toNat = tokenCount
  · have hwrap : ((c.nth n).val.toNat + 1) % tokenLimit = 0 := by rw [h]; rfl
    rw [if_pos hwrap, if_pos h]
  · have hlt := (c.nth n).lt
    have hstep : ((c.nth n).val.toNat + 1) % tokenLimit = (c.nth n).val.toNat + 1 := by
      apply Nat.mod_eq_of_lt
      simp only [tokenCount, tokenLimit] at *
      omega
    rw [hstep, if_neg (Nat.succ_ne_zero _), if_neg h]

/-- The tokens count upwards from the first, in a cycle. -/
theorem val_nth (c : TokenCounter) (n : Nat) :
    (c.nth n).val.toNat = ((c.nth 0).val.toNat - 1 + n) % tokenCount + 1 := by
  induction n with
  | zero =>
    have hpos := (c.nth 0).pos
    have hlt := (c.nth 0).lt
    simp only [tokenCount, tokenLimit] at *
    omega
  | succ n ih =>
    rw [val_nth_succ, ih]
    generalize (c.nth 0).val.toNat - 1 = a
    by_cases h : (a + n) % tokenCount + 1 = tokenCount
    · rw [if_pos h]
      simp only [tokenCount, tokenLimit] at *
      omega
    · rw [if_neg h]
      simp only [tokenCount, tokenLimit] at *
      omega

theorem bijOn_nth (c : TokenCounter) (m : Nat) :
    Set.BijOn c.nth (Set.Ico m (m + tokenCount)) Set.univ := by
  refine ⟨Set.mapsTo_univ _ _, ?_, ?_⟩
  · intro i hi j hj hij
    have hval := congrArg (fun t => t.val.toNat) hij
    simp only [val_nth c i, val_nth c j] at hval
    simp only [Set.mem_Ico, tokenCount, tokenLimit] at *
    omega
  · intro t _
    have hpos := t.pos
    have hlt := t.lt
    generalize hfirst : (c.nth 0).val.toNat - 1 = a
    refine ⟨m + (t.val.toNat - 1 + (tokenCount - (a + m) % tokenCount)) % tokenCount, ?_, ?_⟩
    · simp only [Set.mem_Ico, tokenCount, tokenLimit]
      omega
    · apply Token.ext
      apply UInt64.toNat_inj.mp
      rw [val_nth, hfirst]
      simp only [tokenCount, tokenLimit] at *
      omega

/-- What a counter hands out, wherever it starts: numbers of 62 bits that are not zero, upwards in a
cycle, so that any `2 ^ 62 - 1` in a row are all of them. None takes more than two rounds of the
loop. -/
structure RunsInCycle (c : TokenCounter) : Prop where
  drawn : ∀ n, ∃ k ≤ 2,
    (∀ j t c', Draws j (c.after n) t c' ↔ j = k ∧ t = c.nth n ∧ c' = c.after (n + 1)) ∧
      (c.after (n + 1)).count = (c.after n).count + UInt64.ofNat k
  val_mem : ∀ n, 1 ≤ (c.nth n).val.toNat ∧ (c.nth n).val.toNat < 2 ^ 62
  first : (c.nth 0).val.toNat =
    if c.count.toNat % 2 ^ 62 = 0 then 1 else c.count.toNat % 2 ^ 62
  next : ∀ n, (c.nth (n + 1)).val.toNat =
    if (c.nth n).val.toNat = 2 ^ 62 - 1 then 1 else (c.nth n).val.toNat + 1
  cyclic : ∀ n, (c.nth n).val.toNat = ((c.nth 0).val.toNat - 1 + n) % (2 ^ 62 - 1) + 1
  all_once : ∀ m, Set.BijOn c.nth (Set.Ico m (m + (2 ^ 62 - 1))) Set.univ

/-- A counter hands out all tokens in a cycle, and none of them twice before it has come round. -/
theorem tokens_cycle (c : TokenCounter) : RunsInCycle c := by
  have hlimit : tokenLimit = 2 ^ 62 := rfl
  have hcount : tokenCount = 2 ^ 62 - 1 := rfl
  constructor
  case drawn =>
    intro n
    obtain ⟨k, hk, hdraws⟩ := c.exists_draws_nth n
    refine ⟨k, hk, fun j t c' => ⟨fun h => h.unique hdraws, ?_⟩, hdraws.count_eq⟩
    rintro ⟨rfl, rfl, rfl⟩
    exact hdraws
  case val_mem =>
    intro n
    rw [← hlimit]
    exact ⟨(c.nth n).pos, (c.nth n).lt⟩
  case first =>
    rw [← hlimit]
    exact c.val_nth_zero
  case next =>
    rw [← hcount]
    exact c.val_nth_succ
  case cyclic =>
    rw [← hcount]
    exact c.val_nth
  case all_once =>
    rw [← hcount]
    exact c.bijOn_nth

example : (nth ⟨0xFFFFFFFFFFFFFFFF⟩ 0).val = 0x3FFFFFFFFFFFFFFF ∧
    (nth ⟨0xFFFFFFFFFFFFFFFF⟩ 1).val = 1 := by cbv

end TokenCounter

end ReadThrough
