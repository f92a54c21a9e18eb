/-!
# Lease tokens

A token is a positive number of 62 bits, so that it fits into a 64-bit word beside
two further bits. A counter of 64 bits hands tokens out: each is the low 62 bits
of the count, and a count whose low bits are all zero is passed over.
-/

namespace ReadThrough

def tokenLimit : Nat := 0x4000000000000000

/-- Identifies one attempt to renew an entry. -/
@[ext]
structure Token where
  val : UInt64
  pos : 0 < val.toNat
  lt : val.toNat < tokenLimit
  deriving DecidableEq

def tokenMask : UInt64 := 0x3FFFFFFFFFFFFFFF

theorem toNat_and_tokenMask (n : UInt64) : (n &&& tokenMask).toNat = n.toNat % tokenLimit := by
  rw [UInt64.toNat_and]
  exact Nat.and_two_pow_sub_one_eq_mod n.toNat 62

/-- Where the tokens handed out next come from. -/
structure TokenCounter where
  count : UInt64
  deriving DecidableEq

namespace TokenCounter

def start : TokenCounter := ⟨1⟩

/-- Of two counts in a row, at most one has low bits that are all zero. -/
theorem succ_masked_ne_zero {n : UInt64} (h : n &&& tokenMask = 0) :
    (n + 1) &&& tokenMask ≠ 0 := by
  intro h'
  have h0 := congrArg UInt64.toNat h
  have h1 := congrArg UInt64.toNat h'
  rw [toNat_and_tokenMask] at h0 h1
  simp only [UInt64.toNat_add, UInt64.reduceToNat, tokenLimit] at h0 h1
  omega

/-- Take the next token. The counter moves on by one for each count it looks at. -/
def next (c : TokenCounter) : Token × TokenCounter :=
  let low := c.count &&& tokenMask
  if h : low = 0 then next ⟨c.count + 1⟩
  else
    ({ val := low
       pos := Nat.pos_of_ne_zero fun e => h (UInt64.toNat_inj.mp e)
       lt := by
        rw [toNat_and_tokenMask]
        exact Nat.mod_lt _ (by decide) },
      ⟨c.count + 1⟩)
termination_by if c.count &&& tokenMask = 0 then 1 else 0
decreasing_by
  have h : c.count &&& tokenMask = 0 := h
  simp [h, succ_masked_ne_zero h]

end TokenCounter

end ReadThrough
