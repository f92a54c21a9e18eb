import Mathlib.Tactic.NormNum
import ReadThrough.Cache.Basic

/-!
# Which settings a store can be laid out for

The check that settings pass looks at the time to live and for zeros. Whether a store can be laid
out depends on numbers that it does not look at: the shards, rounded up to a power of two, and the
room that is reserved in each must be words, and the machine must have the memory for them. Nothing
else can go wrong, and where nothing does every hash is cut down to the index of a shard.
-/

namespace ReadThrough

/-! ### Powers of two -/

theorem shardCount_eq_two_pow (bits : Nat) : shardCount bits = 2 ^ bits := Nat.one_shiftLeft bits

theorem bitsToHold_le_iff {n b : Nat} : bitsToHold n ≤ b ↔ n ≤ 2 ^ b := by
  unfold bitsToHold
  split
  · rename_i small
    have hpos := Nat.two_pow_pos b
    omega
  · rename_i large
    rw [Nat.succ_le_iff, Nat.log2_lt (by omega)]
    omega

theorem le_two_pow_bitsToHold (n : Nat) : n ≤ 2 ^ bitsToHold n := bitsToHold_le_iff.mp le_rfl

/-- Less one, a power of two is a mask that cuts a hash down to the remainder. -/
theorem toNat_and_shardCount_sub_one {bits : Nat} (hbits : bits < 64) (h : UInt64) :
    (h &&& (UInt64.ofNat (shardCount bits) - 1)).toNat = h.toNat % shardCount bits := by
  have hlt : shardCount bits < UInt64.size := by
    rw [shardCount_eq_two_pow]
    exact Nat.pow_lt_pow_right (by decide) hbits
  have hone : (1 : UInt64) ≤ UInt64.ofNat (shardCount bits) := by
    rw [UInt64.le_iff_toNat_le, UInt64.toNat_ofNat_of_lt' hlt]
    exact shardCount_pos bits
  have hmask : (UInt64.ofNat (shardCount bits) - 1).toNat = shardCount bits - 1 := by
    rw [UInt64.toNat_sub_of_le _ _ hone, UInt64.toNat_ofNat_of_lt' hlt]
    rfl
  rw [UInt64.toNat_and, hmask, shardCount_eq_two_pow]
  exact Nat.and_two_pow_sub_one_eq_mod _ _

/-! ### Settings -/

namespace Settings

variable (s : Settings)

def wantedEntries : Nat := (s.maxEntries.getD 0).toNat

theorem request_timeToLive : s.request.timeToLive = s.timeToLive := by
  unfold request
  split <;> rfl

theorem request_shards : s.request.shards = s.shards := by
  unfold request
  split <;> rfl

theorem request_estimatedSize : s.request.estimatedSize.getD 0 = s.maxEntries.getD 0 := by
  unfold request
  split
  · rename_i h
    rw [h]
    rfl
  · rename_i h
    rw [h]

theorem request_maxEntries : s.request.maxEntries = s.maxEntries := by
  unfold request
  split
  · rename_i h
    exact h.symm
  · rename_i h
    exact h.symm

variable {s} {name : String} {now : Instant}

theorem check_eq_ok_iff : s.check name now = .ok () ↔ s.timeToLive.isZero = false ∧
    isRepresentable (now + s.timeToLive.toNanos) = true ∧ s.maxEntries ≠ some 0 ∧
      s.shards ≠ some 0 := by
  unfold check
  split
  · simp_all
  · split
    · simp_all
    · split
      · simp_all
      · split <;> simp_all

variable [Machine]

def wantedShards (s : Settings) : Nat := s.request.wantedShards

/-- The shards that there are going to be. -/
def roundedShards (s : Settings) : Nat := shardCount (bitsToHold s.wantedShards)

/-- The entries that each shard has room for from the start: twice its share. -/
def roomPerShard (s : Settings) : Nat :=
  if s.roundedShards < s.wantedEntries then s.wantedEntries / s.roundedShards * 2 else 0

theorem one_le_roundedShards : 1 ≤ s.roundedShards := shardCount_pos _

theorem shards_overflow_iff :
    UInt64.size ≤ s.wantedShards ↔ s.shards = none ∧ 2 ^ 62 ≤ Machine.parallelism.toNat := by
  rw [wantedShards, StoreRequest.wantedShards, request_shards]
  cases s.shards with
  | none =>
    have hsize : UInt64.size = 2 ^ 62 * 4 := rfl
    simp only [Option.map_none, Option.getD_none, true_and]
    omega
  | some n => exact iff_of_false (not_le.mpr n.toNat_lt) fun h => nomatch h.1

/-- Rounding up leaves the words where more shards are asked for than half the words count. -/
theorem bits_overflow_iff : 64 ≤ bitsToHold s.wantedShards ↔ 2 ^ 63 < s.wantedShards := by
  rw [← not_le, ← bitsToHold_le_iff]
  omega

/-- The room for a share, doubled, leaves the words only where there is one shard for all. -/
theorem reservation_overflow_iff : UInt64.size ≤ s.roomPerShard ↔
    s.wantedShards ≤ 1 ∧ 2 ^ 63 ≤ s.wantedEntries := by
  have hone : s.wantedShards ≤ 1 ↔ s.roundedShards ≤ 1 := by
    have hbits := bitsToHold_le_iff (n := s.wantedShards) (b := 0)
    rw [roundedShards, shardCount_eq_two_pow, ← Nat.pow_zero 2,
      Nat.pow_le_pow_iff_right (by decide), hbits]
  have hentries : s.wantedEntries < UInt64.size := UInt64.toNat_lt _
  have hpos : 1 ≤ s.roundedShards := one_le_roundedShards
  rw [hone, roomPerShard]
  generalize s.roundedShards = count at hpos ⊢
  generalize s.wantedEntries = entries at hentries ⊢
  have hsize : UInt64.size = 2 ^ 64 := rfl
  by_cases hcount : count ≤ 1
  · obtain rfl : count = 1 := by omega
    rw [Nat.div_one]
    split <;> omega
  · have hhalf : entries / count ≤ entries / 2 := Nat.div_le_div_left (by omega) (by decide)
    split <;> omega

/-- A number that the settings come to is no word. -/
inductive Overflows (s : Settings) : LayoutError → Prop where
  | parallelism (usual : s.shards = none) (threads : 2 ^ 62 ≤ Machine.parallelism.toNat) :
      Overflows s .parallelismOverflow
  | shardCount (shards : 2 ^ 63 < s.wantedShards) (countable : s.wantedShards < UInt64.size) :
      Overflows s .shardCountOverflow
  | reservation (shards : s.wantedShards ≤ 1) (entries : 2 ^ 63 ≤ s.wantedEntries) :
      Overflows s .reservationOverflow

/-- All numbers that the settings come to are words. -/
structure Countable (s : Settings) : Prop where
  shards : s.wantedShards ≤ 2 ^ 63
  reservation : ¬ (s.wantedShards ≤ 1 ∧ 2 ^ 63 ≤ s.wantedEntries)

/-- What the settings ask for, the machine has no memory for. -/
inductive Outgrows (s : Settings) (keyBytes : Nat) : LayoutError → Prop where
  | shardBlock (shards : Machine.holdsShards s.roundedShards = false) :
      Outgrows s keyBytes .shardBlockOverflow
  | tableBlock (shards : Machine.holdsShards s.roundedShards = true)
      (table : Machine.holdsTable keyBytes s.roomPerShard = false) :
      Outgrows s keyBytes .tableBlockOverflow

/-- The machine has the memory for what the settings ask for. -/
structure Fits (s : Settings) (keyBytes : Nat) : Prop where
  shards : Machine.holdsShards s.roundedShards = true
  table : Machine.holdsTable keyBytes s.roomPerShard = true

variable {keyBytes : Nat}

theorem layout_eq (passed : s.check name now = .ok ()) :
    s.request.layout now keyBytes =
      if UInt64.size ≤ s.wantedShards then .error .parallelismOverflow
      else if 2 ^ 63 < s.wantedShards then .error .shardCountOverflow
      else if s.wantedShards ≤ 1 ∧ 2 ^ 63 ≤ s.wantedEntries then .error .reservationOverflow
      else if Machine.holdsShards s.roundedShards = false then .error .shardBlockOverflow
      else if Machine.holdsTable keyBytes s.roomPerShard = false then .error .tableBlockOverflow
      else .ok
        { timeToLive := s.timeToLive
          shardBits := bitsToHold s.wantedShards
          reservation := s.roomPerShard
          capacity := s.maxEntries.map UInt64.toNat } := by
  obtain ⟨hzero, hrepresentable, -, -⟩ := check_eq_ok_iff.mp passed
  have hlayout : s.request.layout now keyBytes =
      if UInt64.size ≤ s.wantedShards then .error .parallelismOverflow
      else if 64 ≤ bitsToHold s.wantedShards then .error .shardCountOverflow
      else if UInt64.size ≤ s.roomPerShard then .error .reservationOverflow
      else if !Machine.holdsShards s.roundedShards then .error .shardBlockOverflow
      else if !Machine.holdsTable keyBytes s.roomPerShard then .error .tableBlockOverflow
      else .ok
        { timeToLive := s.timeToLive
          shardBits := bitsToHold s.wantedShards
          reservation := s.roomPerShard
          capacity := s.maxEntries.map UInt64.toNat } := by
    unfold StoreRequest.layout
    rw [request_timeToLive, request_estimatedSize, request_maxEntries, hzero, hrepresentable]
    rfl
  simp only [hlayout, bits_overflow_iff, reservation_overflow_iff, Bool.not_eq_true']

theorem layout_eq_error_iff (passed : s.check name now = .ok ()) {e : LayoutError} :
    s.request.layout now keyBytes = .error e ↔
      s.Overflows e ∨ s.Countable ∧ s.Outgrows keyBytes e := by
  rw [layout_eq passed]
  constructor
  · intro h
    split_ifs at h with hthreads hcount hroom hshards htable <;> cases h
    · obtain ⟨husual, hthreads⟩ := shards_overflow_iff.mp hthreads
      exact .inl (.parallelism husual hthreads)
    · exact .inl (.shardCount hcount (not_le.mp hthreads))
    · exact .inl (.reservation hroom.1 hroom.2)
    · exact .inr ⟨⟨not_lt.mp hcount, hroom⟩, .shardBlock hshards⟩
    · exact .inr ⟨⟨not_lt.mp hcount, hroom⟩, .tableBlock (Bool.not_eq_false _ ▸ hshards) htable⟩
  · have hsize : UInt64.size = 2 ^ 64 := rfl
    rintro ((⟨husual, hthreads⟩ | ⟨hshards, hword⟩ | ⟨hshards, hentries⟩) |
      ⟨⟨hshards, hroom⟩, hblock | ⟨hblock, htable⟩⟩)
    · rw [if_pos (shards_overflow_iff.mpr ⟨husual, hthreads⟩)]
    · rw [if_neg (not_le.mpr hword), if_pos hshards]
    · rw [if_neg (by omega), if_neg (by omega), if_pos ⟨hshards, hentries⟩]
    · rw [if_neg (by omega), if_neg (not_lt.mpr hshards), if_neg hroom, if_pos hblock]
    · rw [if_neg (by omega), if_neg (not_lt.mpr hshards), if_neg hroom, hblock,
        if_neg Bool.true_eq_false_eq_False, if_pos htable]

theorem exists_layout_iff (passed : s.check name now = .ok ()) :
    (∃ l, s.request.layout now keyBytes = .ok l) ↔ s.Countable ∧ s.Fits keyBytes := by
  have hsize : UInt64.size = 2 ^ 64 := rfl
  rw [layout_eq passed]
  constructor
  · rintro ⟨l, h⟩
    split_ifs at h with hthreads hcount hroom hshards htable
    exact ⟨⟨not_lt.mp hcount, hroom⟩, ⟨by simpa using hshards, by simpa using htable⟩⟩
  · rintro ⟨⟨hshards, hroom⟩, ⟨hblock, htable⟩⟩
    rw [if_neg (by omega), if_neg (not_lt.mpr hshards), if_neg hroom, hblock, htable]
    exact ⟨_, rfl⟩

/-- A layout that is what the settings ask for, in numbers that fit a word: the least power of two
of shards that is enough, found by a mask of the hash, with twice their share of the entries
reserved in each. -/
structure Realized (s : Settings) (l : Layout) : Prop where
  timeToLive : l.timeToLive = s.timeToLive
  capacity : l.capacity = s.maxEntries.map UInt64.toNat
  shardBits_lt : l.shardBits < 64
  wanted : s.wantedShards ≤ shardCount l.shardBits
  least : ∀ b, s.wantedShards ≤ 2 ^ b → shardCount l.shardBits ≤ 2 ^ b
  index : ∀ h : UInt64,
    (h &&& (UInt64.ofNat (shardCount l.shardBits) - 1)).toNat = h.toNat % shardCount l.shardBits ∧
      h.toNat % shardCount l.shardBits < shardCount l.shardBits
  reservation : l.reservation = s.roomPerShard ∧ l.reservation < UInt64.size

theorem realized_of_layout (passed : s.check name now = .ok ()) {l : Layout}
    (hl : s.request.layout now keyBytes = .ok l) : s.Realized l := by
  obtain ⟨hcountable, -⟩ := (exists_layout_iff passed).mp ⟨l, hl⟩
  have hbits : bitsToHold s.wantedShards < 64 :=
    Nat.lt_succ_iff.mpr (bitsToHold_le_iff.mpr hcountable.shards)
  have hroom : s.roomPerShard < UInt64.size :=
    not_le.mp fun hlarge => hcountable.reservation (reservation_overflow_iff.mp hlarge)
  rw [layout_eq passed] at hl
  split_ifs at hl
  cases hl
  constructor
  case timeToLive => rfl
  case capacity => rfl
  case shardBits_lt => exact hbits
  case wanted =>
    rw [shardCount_eq_two_pow]
    exact le_two_pow_bitsToHold _
  case least =>
    intro b hb
    rw [shardCount_eq_two_pow]
    exact Nat.pow_le_pow_right (by decide) (bitsToHold_le_iff.mpr hb)
  case index =>
    intro h
    exact ⟨toNat_and_shardCount_sub_one hbits h, Nat.mod_lt _ (shardCount_pos _)⟩
  case reservation => exact ⟨rfl, hroom⟩

end Settings

theorem Catalogue.check_of_settings {catalogue : Catalogue} {name : String} {now : Instant}
    {s : Settings} (h : catalogue.settings name now = .ok s) : s.check name now = .ok () := by
  unfold settings at h
  split at h
  · cases h
  · rename_i s' _
    cases hcheck : s'.check name now with
    | error e =>
      rw [hcheck] at h
      cases h
    | ok u =>
      rw [hcheck] at h
      cases h
      exact hcheck

namespace Cache

variable {ι κ ν ε ω : Type}

/-- What comes of setting up the cache that is configured under `name`. It is refused if there are
no settings that pass their check, or nothing to run renewals by. It breaks off if they ask too
much, and otherwise the store is what they ask for, and empty. -/
structure SetUpExactly [Machine] (catalogue : Catalogue) (name : String) (executor : Executor)
    (keyBytes : Nat) (now : Instant) (outcome : Except SetUpFailure (Cache ι κ ν ε ω)) :
    Prop where
  refused_iff : ∀ e, outcome = .error (.refused e) ↔ catalogue.settings name now = .error e ∨
    (∃ s, catalogue.settings name now = .ok s) ∧ executor = .missing ∧ e = .noExecutor
  unbuildable_iff : ∀ e, outcome = .error (.unbuildable e) ↔ executor ≠ .missing ∧
    ∃ s, catalogue.settings name now = .ok s ∧
      (s.Overflows e ∨ s.Countable ∧ s.Outgrows keyBytes e)
  built_iff : (∃ c, outcome = .ok c) ↔ executor ≠ .missing ∧
    ∃ s, catalogue.settings name now = .ok s ∧ s.Countable ∧ s.Fits keyBytes
  built : ∀ c, outcome = .ok c → ∃ s l hash, catalogue.settings name now = .ok s ∧
    s.request.layout now keyBytes = .ok l ∧ s.Realized l ∧ c.store = .ofLayout l hash

/-- A cache is set up, or refused, exactly as its settings have it, unless they pass their check and
ask for more than words count or the machine has memory for. -/
theorem set_up_exactly [Machine] (catalogue : Catalogue) (name scope : String) (policy : Policy)
    (executor : Executor) (hash : κ → UInt64) (keyBytes : Nat) (now : Instant) :
    SetUpExactly catalogue name executor keyBytes now
      (setUp catalogue name scope policy executor hash keyBytes now :
        Except SetUpFailure (Cache ι κ ν ε ω)) := by
  unfold setUp
  cases hs : catalogue.settings name now with
  | error e => constructor <;> simp [hs]
  | ok s =>
    have passed := Catalogue.check_of_settings hs
    by_cases hexecutor : executor = .missing
    · constructor <;> simp [hs, hexecutor, eq_comm]
    · have hexceeds : ∀ e, s.Overflows e ∨ s.Countable ∧ s.Outgrows keyBytes e ↔
          s.request.layout now keyBytes = .error e :=
        fun e => (Settings.layout_eq_error_iff passed).symm
      have hfits : s.Countable ∧ s.Fits keyBytes ↔ ∃ l, s.request.layout now keyBytes = .ok l :=
        (Settings.exists_layout_iff passed).symm
      simp only [hexecutor, if_false]
      cases hl : s.request.layout now keyBytes with
      | error e =>
        constructor
        case refused_iff => simp [hs, hexecutor]
        case unbuildable_iff => simp [hs, hexecutor, hexceeds, hl]
        case built_iff => simp [hs, hfits, hl]
        case built =>
          rintro c ⟨⟩
      | ok l =>
        constructor
        case refused_iff => simp [hs, hexecutor]
        case unbuildable_iff => simp [hs, hexceeds, hl]
        case built_iff => simp [hs, hexecutor, hfits, hl]
        case built =>
          rintro c ⟨⟩
          exact ⟨s, l, hash, hs, hl, Settings.realized_of_layout passed hl, rfl⟩

/-- One shard, and a bound that a signed word does not hold. -/
def oversized : Settings := ⟨.ofSeconds 1, some 0x8000000000000000, some 1⟩

/-- Its settings pass their check, and no store can be laid out for them on any machine. -/
theorem oversized_unbuildable :
    Settings.check oversized "c" 0 = .ok () ∧
      ∀ [Machine], oversized.request.layout 0 24 = .error .reservationOverflow := by
  refine ⟨by decide, ?_⟩
  intro machine
  have passed : Settings.check oversized "c" 0 = .ok () := by decide
  exact (Settings.layout_eq_error_iff passed).mpr (.inl (.reservation le_rfl (by decide)))

end Cache

end ReadThrough
