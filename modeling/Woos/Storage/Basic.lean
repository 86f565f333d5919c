import Mathlib.Tactic.SplitIfs
import Woos.Lib.Memory
import Woos.Lib.Transfers

/-!
# Sectors

The two drivers of `ahci.c` and `storage.c` and the glue of `diskio.c` move whole sectors between a
drive and a buffer in memory.  `State` is what they read and change: the state of the drive, the
memory of the callers, and the two variables that `storage.c` keeps about the last read.

`inChunks` is the loop that is written out in `disk_read`, `disk_write`, `ahci_read_sectors` and
`ahci_write_sectors`: each advances a sector number and a pointer, and stops at the first failure.
`spin` is the loop that polls a register a number of times.

`fetching` and `storing` are the two movements of sectors, and `inChunks_transfers` is the rule of the
loop: when each of its transfers meets the specification, so does the whole.
-/

namespace Storage

/-- `STORAGE_SECTOR_SIZE`. -/
def sectorSize : Nat := 512

/-- The bytes of a sector. -/
abbrev Sector : Type := Fin 512 → UInt8

/-- What a drive holds, and the sectors that it has transferred so far, in order. -/
@[ext]
structure Disk where
  sectors : Nat → Sector
  transferred : List Nat

/-- What the functions read and change: the drive, the memory of the callers, `g_last_read_ok` and
`g_last_lba`. -/
structure State (σ : Type) where
  drive : σ
  mem : Memory
  lastReadOk : Bool
  lastLba : UInt32

/-- Poll for `n` rounds at most, until a round has a verdict. -/
@[irreducible]
def spin {σ : Type} (round : σ → Option Bool × σ) : Nat → σ → Option Bool × σ
  | 0, s => (none, s)
  | n + 1, s =>
      match round s with
      | (some verdict, s) => (some verdict, s)
      | (none, s) => spin round n s

theorem spin_of_verdict {σ : Type} {round : σ → Option Bool × σ} {n : Nat} {s s' : σ} {verdict : Bool}
    (hn : 0 < n) (h : round s = (some verdict, s')) :
  spin round n s = (some verdict, s')
  := by
  obtain ⟨n, rfl⟩ := Nat.exists_eq_succ_of_ne_zero hn.ne'
  rw [spin, h]

/-- The loop over the parts of a request of `rem` sectors, each of `limit` sectors at most. -/
def inChunks {S : Type} (limit : Nat) (transfer : UInt32 → Nat → Nat → S → Bool × S)
    (cur : UInt32) (rem ptr : Nat) (s : S) : Bool × S :=
  if rem = 0 ∨ limit = 0 then (true, s)
  else
    let chunk := if rem > limit then limit else rem
    match transfer cur chunk ptr s with
    | (false, s) => (false, s)
    | (true, s) => inChunks limit transfer (cur + .ofNat chunk) (rem - chunk) (ptr + chunk * 512) s
termination_by rem
decreasing_by split_ifs <;> omega

/-- A byte of an address in a register. -/
theorem toNat_register {v : UInt32} (h : v.toNat < 256) :
  v.toUInt8.toNat = v.toNat
  := by
  rw [UInt32.toNat_toUInt8]
  exact Nat.mod_eq_of_lt h

/-! ### Movements of sectors -/

/-- Write the bytes `f 0`, …, `f (len - 1)` from `a` on: the target of a `memcpy`. -/
def put (m : Memory) (a len : Nat) (f : Nat → UInt8) : Memory :=
  fun x => if a ≤ x ∧ x < a + len then f (x - a) else m x

/-- The bytes of the sectors from `n` on. -/
def bytesFrom (sectors : Nat → Sector) (n i : Nat) : UInt8 :=
  sectors (n + i / 512) ⟨i % 512, Nat.mod_lt i (by decide)⟩

/-- The sectors from `n` on hold the bytes from `p` on. -/
def hold (sectors : Nat → Sector) (n j : Nat) (f : Nat → UInt8) : Nat → Sector :=
  fun m => if n ≤ m ∧ m < n + j then (fun i => f (512 * (m - n) + i)) else sectors m

/-- The memory of the callers and what the drive holds. -/
@[ext]
structure Contents where
  mem : Memory
  disk : Disk

theorem put_zero (m : Memory) (a : Nat) (f : Nat → UInt8) :
  put m a 0 f = m
  := by
  funext x
  exact if_neg (by omega)

theorem put_put (m : Memory) (a k l : Nat) (f : Nat → UInt8) :
  put (put m a k f) (a + k) l (fun i => f (k + i)) = put m a (k + l) f
  := by
  funext x
  rw [put, put, put]
  by_cases hsecond : a + k ≤ x ∧ x < a + k + l
  · rw [if_pos hsecond, if_pos (by omega)]
    congr 1
    omega
  · rw [if_neg hsecond]
    by_cases hfirst : a ≤ x ∧ x < a + k
    · rw [if_pos hfirst, if_pos (by omega)]
    · rw [if_neg hfirst, if_neg (by omega)]

theorem put_congr {m : Memory} {a len : Nat} {f g : Nat → UInt8} (h : ∀ i < len, f i = g i) :
  put m a len f = put m a len g
  := by
  funext x
  rw [put, put]
  split_ifs with hx
  · exact h _ (by omega)
  · rfl

theorem bytesFrom_add (sectors : Nat → Sector) (n a i : Nat) :
  bytesFrom sectors n (512 * a + i) = bytesFrom sectors (n + a) i
  := by
  have hsector : n + (512 * a + i) / 512 = n + a + i / 512 := by omega
  have hbyte : (512 * a + i) % 512 = i % 512 := by omega
  simp only [bytesFrom, hsector, hbyte]

theorem hold_hold (sectors : Nat → Sector) (n a b : Nat) (f : Nat → UInt8) :
  hold (hold sectors n a f) (n + a) b (fun i => f (512 * a + i)) = hold sectors n (a + b) f
  := by
  funext m
  rw [hold, hold, hold]
  by_cases hsecond : n + a ≤ m ∧ m < n + a + b
  · rw [if_pos hsecond, if_pos (by omega)]
    funext i
    congr 1
    omega
  · rw [if_neg hsecond]
    by_cases hfirst : n ≤ m ∧ m < n + a
    · rw [if_pos hfirst, if_pos (by omega)]
    · rw [if_neg hfirst, if_neg (by omega)]

theorem hold_congr {sectors : Nat → Sector} {n j : Nat} {f g : Nat → UInt8} (h : ∀ i < j * 512, f i = g i) :
  hold sectors n j f = hold sectors n j g
  := by
  funext m
  rw [hold, hold]
  split_ifs with hm
  · funext i
    exact h _ (by omega)
  · rfl

theorem hold_one (sectors : Nat → Sector) (n : Nat) (f : Nat → UInt8) :
  hold sectors n 1 f = Function.update sectors n (fun i => f i)
  := by
  funext m
  by_cases hm : m = n
  · subst hm
    rw [Function.update_self, hold, if_pos (by omega), Nat.sub_self, Nat.mul_zero]
    simp only [Nat.zero_add]
  · rw [Function.update_of_ne hm]
    exact if_neg (by omega)

/-- Sectors of the drive are read into memory. -/
def fetching : Movement 512 Contents where
  move n p j s :=
    ⟨put s.mem p (512 * j) (bytesFrom s.disk.sectors n), s.disk.sectors,
      s.disk.transferred ++ List.range' n j⟩
  Broken n p lo hi s s' :=
    ∃ j, lo ≤ j ∧ j ≤ hi ∧ s' =
      ⟨put s.mem p (512 * lo) (bytesFrom s.disk.sectors n), s.disk.sectors,
        s.disk.transferred ++ List.range' n j⟩
  move_zero n p s := by
    ext1
    · exact put_zero s.mem p _
    · ext1
      · rfl
      · exact List.append_nil _
  move_add n p a b s := by
    ext1
    · dsimp only
      rw [Nat.mul_add, ← put_put]
      congr 1
      funext i
      exact bytesFrom_add s.disk.sectors n a i
    · ext1
      · rfl
      · dsimp only
        rw [List.append_assoc, List.range'_append_1]
  broken_add := by
    rintro n p a lo hi s s' ⟨j, hlo, hhi, rfl⟩
    refine ⟨a + j, by omega, by omega, ?_⟩
    ext1
    · dsimp only
      rw [Nat.mul_add, ← put_put]
      congr 1
      funext i
      exact (bytesFrom_add s.disk.sectors n a i).symm
    · ext1
      · rfl
      · dsimp only
        rw [List.append_assoc, List.range'_append_1]
  broken_mono := by
    rintro n p lo hi hi' s s' hle ⟨j, hlo, hhi, h⟩
    exact ⟨j, hlo, hhi.trans hle, h⟩

/-- The bytes of memory are written to sectors of the drive. -/
def storing : Movement 512 Contents where
  move n p j s :=
    ⟨s.mem, hold s.disk.sectors n j (fun i => s.mem (p + i)), s.disk.transferred ++ List.range' n j⟩
  Broken n p lo hi s s' :=
    s'.mem = s.mem ∧ (∀ m, m < n + lo ∨ n + hi ≤ m →
        s'.disk.sectors m = hold s.disk.sectors n lo (fun i => s.mem (p + i)) m)
      ∧ ∃ j, lo ≤ j ∧ j ≤ hi ∧ s'.disk.transferred = s.disk.transferred ++ List.range' n j
  move_zero n p s := by
    ext1
    · rfl
    · ext1
      · funext m
        exact if_neg (by omega)
      · exact List.append_nil _
  move_add n p a b s := by
    ext1
    · rfl
    · ext1
      · dsimp only
        rw [← hold_hold]
        congr 1
        funext i
        rw [Nat.add_assoc]
      · dsimp only
        rw [List.append_assoc, List.range'_append_1]
  broken_add := by
    rintro n p a lo hi s s' ⟨hmem, hsectors, j, hlo, hhi, htransferred⟩
    refine ⟨hmem, ?_, a + j, by omega, by omega, ?_⟩
    · intro m hm
      rw [hsectors m (by omega), ← hold_hold]
      congr 1
      funext i
      rw [Nat.add_assoc]
    · rw [htransferred, List.append_assoc, List.range'_append_1]
  broken_mono := by
    rintro n p lo hi hi' s s' hle ⟨hmem, hsectors, j, hlo, hhi, htransferred⟩
    exact ⟨hmem, fun m hm => hsectors m (by omega), j, hlo, hhi.trans hle, htransferred⟩

/-- One sector is written. -/
theorem storing_move_one (m : Memory) (disk : Disk) (n p : Nat) :
  storing.move n p 1 ⟨m, disk⟩
    = ⟨m, Function.update disk.sectors n (fun i => m (p + i)), disk.transferred ++ [n]⟩
  := by
  show Contents.mk m ⟨hold disk.sectors n 1 (fun i => m (p + i)), _⟩ = _
  rw [hold_one]
  rfl

theorem fetching_untouched (n p hi : Nat) (s : Contents) :
  fetching.Broken n p 0 hi s s
  := by
  refine ⟨0, Nat.le_refl 0, Nat.zero_le hi, ?_⟩
  exact (fetching.move_zero n p s).symm

theorem storing_untouched (n p hi : Nat) (s : Contents) :
  storing.Broken n p 0 hi s s
  := by
  refine ⟨rfl, ?_, 0, Nat.le_refl 0, Nat.zero_le hi, (List.append_nil _).symm⟩
  intro m hm
  exact (if_neg (by omega)).symm

/-- What is seen of a state, when `disk` is what the drive holds. -/
def State.view {σ : Type} (disk : σ → Disk) (s : State σ) : Contents := ⟨s.mem, disk s.drive⟩

/-! ### The rule of the loop -/

/-- An operation that transfers `k` sectors from or to `p`, from the state `s` on. -/
abbrev Meets {σ : Type} (M : Movement 512 Contents) (disk : σ → Disk) (Ready : σ → Prop)
    (Bad : Nat → Prop) (Seen : Nat → Nat → Prop) (g n p k : Nat) (s : State σ)
    (r : Bool × State σ) : Prop :=
  Transfers M Bad Seen g n p k (s.view disk) (Ready r.2.drive) r.1 (r.2.view disk)

/-- The loop meets the specification when every transfer of its body does. -/
theorem inChunks_meets {σ : Type} {M : Movement 512 Contents} {disk : σ → Disk} {Ready : σ → Prop}
    {Bad : Nat → Prop} {Seen : Nat → Nat → Prop} {g limit base : Nat}
    {transfer : UInt32 → Nat → Nat → State σ → Bool × State σ} (hlimit : 0 < limit) (hdvd : g ∣ limit)
    (hseen₁ : ∀ b, ∀ f < limit, Seen f (limit + b) → Seen f limit)
    (hseen₂ : ∀ b f, Seen (limit + f) (limit + b) → Seen f b)
    (htransfer : ∀ cur k p s, 0 < k → k ≤ limit → base + cur.toNat + k ≤ 2 ^ 28 → p ≠ 0 → Ready s.drive →
      Meets M disk Ready Bad Seen g (base + cur.toNat) p k s (transfer cur k p s))
    (cur : UInt32) (rem p : Nat) (s : State σ) (hrange : base + cur.toNat + rem ≤ 2 ^ 28) (hp : p ≠ 0)
    (hready : Ready s.drive) :
  Meets M disk Ready Bad Seen g (base + cur.toNat) p rem s (inChunks limit transfer cur rem p s)
  := by
  fun_induction inChunks limit transfer cur rem p s with
  | case1 cur rem p s h =>
      rw [h.resolve_right hlimit.ne']
      exact Transfers.nil hready
  | case2 cur rem p s h chunk s' hfalse =>
      by_cases hmore : rem > limit
      · have hchunk : chunk = limit := if_pos hmore
        obtain ⟨b, rfl⟩ : ∃ b, rem = limit + b := ⟨rem - limit, by omega⟩
        have hfirst := htransfer cur chunk p s (by omega) (by omega) (by omega) hp hready
        rw [hfalse, hchunk] at hfirst
        have hsecond : (∀ i < limit, ¬ Bad (base + cur.toNat + i)) →
            Transfers M Bad Seen g (base + cur.toNat + limit) (p + 512 * limit) b (s'.view disk)
              (Ready s'.drive) false (s'.view disk) := by
          intro hgood
          exact absurd (hfirst.whole hgood).1 Bool.false_ne_true
        exact hfirst.append hdvd hsecond (hseen₁ b) (hseen₂ b)
      · have hchunk : chunk = rem := if_neg hmore
        have hlast := htransfer cur chunk p s (by omega) (by omega) (by omega) hp hready
        rw [hfalse, hchunk] at hlast
        exact hlast
  | case3 cur rem p s h chunk s' htrue ih =>
      by_cases hmore : rem > limit
      · have hchunk : chunk = limit := if_pos hmore
        obtain ⟨b, rfl⟩ : ∃ b, rem = limit + b := ⟨rem - limit, by omega⟩
        have hfirst := htransfer cur chunk p s (by omega) (by omega) (by omega) hp hready
        rw [htrue] at hfirst
        rw [hchunk] at hfirst ih ⊢
        have hnext : base + (cur + UInt32.ofNat limit).toNat = base + cur.toNat + limit := by
          rw [UInt32.toNat_add, UInt32.toNat_ofNat', Nat.mod_eq_of_lt (a := limit) (by omega),
            Nat.mod_eq_of_lt (by omega), Nat.add_assoc]
        have hsecond : (∀ i < limit, ¬ Bad (base + cur.toNat + i)) →
            Transfers M Bad Seen g (base + cur.toNat + limit) (p + 512 * limit) b (s'.view disk)
              (Ready (inChunks limit transfer (cur + .ofNat limit) (limit + b - limit) (p + limit * 512)
                s').2.drive)
              (inChunks limit transfer (cur + .ofNat limit) (limit + b - limit) (p + limit * 512) s').1
              ((inChunks limit transfer (cur + .ofNat limit) (limit + b - limit) (p + limit * 512)
                s').2.view disk) := by
          intro hgood
          have hrest := ih (by omega) (by omega) (hfirst.whole hgood).2.1
          rw [hnext, Nat.add_sub_cancel_left, Nat.mul_comm limit 512] at hrest
          rw [Nat.add_sub_cancel_left, Nat.mul_comm limit 512]
          exact hrest
        exact hfirst.append hdvd hsecond (hseen₁ b) (hseen₂ b)
      · have hchunk : chunk = rem := if_neg hmore
        have hlast := htransfer cur chunk p s (by omega) (by omega) (by omega) hp hready
        rw [htrue, hchunk] at hlast
        rw [hchunk, Nat.sub_self, inChunks, if_pos (Or.inl rfl)]
        exact hlast

end Storage
