import ReadThrough.Lease.Word

/-!
# Tokens and stages in one word

A word that a token and a stage are packed into tells both of them, and is not the idle word unless
the stage is idle and so is not held by anybody. So the steps on words do what they are meant to.
-/

namespace ReadThrough

theorem Stage.tag_lt (s : Stage) : s.tag.toNat < 4 := by
  cases s <;> decide

theorem Stage.tag_injective {s s' : Stage} (h : s.tag.toNat = s'.tag.toNat) : s = s' := by
  cases s <;> cases s' <;> first | rfl | (revert h; decide)

namespace LeaseWord

variable {t t' : Token} {s s' : Stage}

theorem toNat_pack (t : Token) (s : Stage) :
    (pack t s).bits.toNat = 4 * t.val.toNat + s.tag.toNat := by
  have hlt : t.val.toNat < 0x4000000000000000 := t.lt
  have hshift : (t.val <<< 2).toNat = t.val.toNat <<< 2 := by
    have htwo : (2 : UInt64).toNat % 64 = 2 := rfl
    rw [UInt64.toNat_shiftLeft, htwo]
    apply Nat.mod_eq_of_lt
    rw [Nat.shiftLeft_eq]
    omega
  have hor : (pack t s).bits.toNat = t.val.toNat <<< 2 ||| s.tag.toNat := by
    rw [← hshift]
    exact UInt64.toNat_or _ _
  rw [hor, ← Nat.shiftLeft_add_eq_or_of_lt s.tag_lt, Nat.shiftLeft_eq]
  omega

theorem toNat_pack_div (t : Token) (s : Stage) : (pack t s).bits.toNat / 4 = t.val.toNat := by
  have h := toNat_pack t s
  have hs := s.tag_lt
  omega

theorem toNat_pack_mod (t : Token) (s : Stage) : (pack t s).bits.toNat % 4 = s.tag.toNat := by
  have h := toNat_pack t s
  have hs := s.tag_lt
  omega

/-- A word tells the token and the stage that it was packed from. -/
theorem pack_inj : pack t s = pack t' s' ↔ t = t' ∧ s = s' := by
  constructor
  · intro h
    have hdiv := toNat_pack_div t s
    have hmod := toNat_pack_mod t s
    rw [h, toNat_pack_div] at hdiv
    rw [h, toNat_pack_mod] at hmod
    exact ⟨Token.ext (UInt64.toNat_inj.mp hdiv.symm), Stage.tag_injective hmod.symm⟩
  · rintro ⟨rfl, rfl⟩
    rfl

theorem pack_ne_idle (t : Token) (s : Stage) : pack t s ≠ idle := by
  intro h
  have hdiv := toNat_pack_div t s
  have hpos := t.pos
  rw [h] at hdiv
  have hzero : idle.bits.toNat / 4 = 0 := rfl
  omega

theorem stage_pack (t : Token) (s : Stage) : (pack t s).stage = s := by
  have hmask : (pack t s).bits &&& 3 = s.tag := by
    apply UInt64.toNat_inj.mp
    rw [UInt64.toNat_and, ← toNat_pack_mod t s]
    exact Nat.and_two_pow_sub_one_eq_mod _ 2
  unfold stage
  rw [hmask]
  cases s <;> rfl

theorem stage_idle : idle.stage = .idle := rfl

@[simp] theorem schedule_eq_some_iff {w w' : LeaseWord} :
    w.schedule t = some w' ↔ w = idle ∧ w' = pack t .scheduled := by
  simp [schedule, eq_comm]

@[simp] theorem start_eq_some_iff {w w' : LeaseWord} :
    w.start t = some w' ↔ w = pack t .scheduled ∧ w' = pack t .running := by
  simp [start, eq_comm]

theorem release_pack {running : Bool} :
    (pack t (if running then .running else .scheduled)).release t = idle := by
  cases running <;> simp [release, pack_inj]

end LeaseWord

end ReadThrough
