import TrustedGateway.Mmio

/-!
# The configuration space

Writes of the normal world land in the buffer that reads are served from; but each read fills
the buffer afresh from the device's own record, which no access changes.  The check of the
offset cannot be passed by a sum that wraps, because an offset in the configuration space is at
least `VIRTIO_MMIO_CONFIG` below the largest one.
-/

namespace TrustedGateway

open StepSystem

variable {M : Type}

/-! ## Bytes of a word -/

variable {d : Dev M} {k size : ℕ} {offset : Word}

/-- The bytes of a word that was put together from bytes. -/
theorem leByte_or_shift (b : ℕ → Byte) (hk : k < 4) :
    leByte ((b 0).setWidth 32 ||| (b 1).setWidth 32 <<< 8 ||| (b 2).setWidth 32 <<< 16 |||
      (b 3).setWidth 32 <<< 24) k = b k := by
  apply BitVec.eq_of_getLsbD_eq
  intro i hi
  have h32 : i < 32 := by omega
  simp only [leByte, BitVec.getLsbD_setWidth, BitVec.getLsbD_ushiftRight, BitVec.getLsbD_or,
    BitVec.getLsbD_shiftLeft]
  obtain rfl | rfl | rfl | rfl : k = 0 ∨ k = 1 ∨ k = 2 ∨ k = 3 := by omega
  · simp [hi, h32, show i < 16 by omega, show i < 24 by omega]
  · simp (disch := omega) [hi, h32, BitVec.getLsbD_of_ge, show 8 + i < 32 by omega,
      show 8 + i < 16 by omega, show 8 + i < 24 by omega, show ¬ 8 + i < 8 by omega]
  · simp (disch := omega) [hi, h32, BitVec.getLsbD_of_ge, show 16 + i < 32 by omega,
      show 16 + i < 24 by omega, show ¬ 16 + i < 16 by omega]
  · simp (disch := omega) [hi, h32, BitVec.getLsbD_of_ge, show 24 + i < 32 by omega,
      show ¬ 24 + i < 24 by omega]

/-- The value of `size` bytes as the load of that width gives it. -/
def leWord (b : ℕ → Byte) : ℕ → Word
  | 1 => (b 0).setWidth 32
  | 2 => (b 0).setWidth 32 ||| (b 1).setWidth 32 <<< 8
  | _ => (b 0).setWidth 32 ||| (b 1).setWidth 32 <<< 8 ||| (b 2).setWidth 32 <<< 16 |||
      (b 3).setWidth 32 <<< 24

/-- The widths of an access. -/
def IsWidth (size : ℕ) : Prop := size = 1 ∨ size = 2 ∨ size = 4

theorem leByte_leWord (b : ℕ → Byte) (hs : IsWidth size) (hk : k < size) :
    leByte (leWord b size) k = b k := by
  rcases hs with rfl | rfl | rfl
  · have h := leByte_or_shift (fun j => if j < 1 then b j else 0) (k := k) (by omega)
    simpa [leWord, hk] using h
  · have h := leByte_or_shift (fun j => if j < 2 then b j else 0) (k := k) (by omega)
    simpa [leWord, hk] using h
  · exact leByte_or_shift b hk

theorem leWord_congr {b b' : ℕ → Byte} (hs : IsWidth size) (h : ∀ k < size, b k = b' k) :
    leWord b size = leWord b' size := by
  rcases hs with rfl | rfl | rfl
  · rw [leWord, leWord, h 0 (by decide)]
  · rw [leWord, leWord, h 0 (by decide), h 1 (by decide)]
  · simp only [leWord, h 0 (by decide), h 1 (by decide), h 2 (by decide), h 3 (by decide)]

/-- Narrowing and sign extension keep the bytes that were read. -/
theorem leByte_narrowRead (v : Word) (sign : Bool) (hs : IsWidth size) (hk : k < size) :
    leByte (narrowRead v size sign) k = leByte v k := by
  apply BitVec.eq_of_getLsbD_eq
  intro i hi
  simp only [leByte, BitVec.getLsbD_setWidth, BitVec.getLsbD_ushiftRight]
  rcases hs with rfl | rfl | rfl
  · cases sign
    · simp [narrowRead, show 8 * k + i < 8 by omega, show 8 * k + i < 32 by omega]
    · simp [narrowRead, BitVec.getElem_signExtend, show 8 * k + i < 8 by omega,
        show 8 * k + i < 32 by omega]
  · cases sign
    · simp [narrowRead, show 8 * k + i < 16 by omega, show 8 * k + i < 32 by omega]
    · simp [narrowRead, BitVec.getElem_signExtend, show 8 * k + i < 16 by omega,
        show 8 * k + i < 32 by omega]
  · rfl

/-! ## One access -/

/-- The offset in the configuration space of an offset in the register block. -/
def configOffset (offset : Word) : ℕ := (offset - virtioMmioConfig).toNat

/-- An access of the configuration space with one of the widths of a load or store. -/
def Access.InConfig : Access → Prop
  | .write offset _ size => virtioMmioConfig ≤ offset ∧ IsWidth size
  | .read offset size _ => virtioMmioConfig ≤ offset ∧ IsWidth size

/-- The check of an access adds without wrapping. -/
theorem addSize_configOffset (ho : virtioMmioConfig ≤ offset) (hs : IsWidth size) :
    addSize (configOffset offset) size = configOffset offset + size := by
  have hlt := offset.isLt
  have ho' : 256 ≤ offset.toNat := ho
  have hoff : configOffset offset = offset.toNat - 256 := BitVec.toNat_sub_of_le ho
  have hs' : size ≤ 4 := by
    rcases hs with rfl | rfl | rfl <;> decide
  rw [hoff, addSize_of_lt (by omega)]

/-- The device with another configuration buffer. -/
def Dev.withConfig (d : Dev M) (c : ℕ → Byte) : Dev M :=
  { d with vdev := { d.vdev with config := c } }

/-- The buffer after `virtio_net_get_config`. -/
def Dev.freshConfig (d : Dev M) : ℕ → Byte :=
  fun k => if k < configLen then virtioNetGetConfig d.vnet k else d.vdev.config k

/-- A read in range gives the bytes of the device's own record. -/
theorem virtioConfigRead_of_le {offset : ℕ} (hs : IsWidth size)
    (hadd : addSize offset size = offset + size) (hle : offset + size ≤ configLen) :
    virtioConfigRead d offset size =
      .ok (leWord (fun k => virtioNetGetConfig d.vnet (offset + k)) size,
        d.withConfig d.freshConfig) := by
  have hfresh : ∀ k < size,
      d.freshConfig (offset + k) = virtioNetGetConfig d.vnet (offset + k) :=
    fun k hk => if_pos (by omega)
  rw [virtioConfigRead, hadd, if_neg (not_lt.mpr hle), ← leWord_congr hs hfresh]
  rcases hs with rfl | rfl | rfl
  · rfl
  · rfl
  · rfl

/-- What an access gives back, and the configuration buffer after it. -/
structure ConfigAccess (d : Dev M) (trusted : ℕ → Byte) (a : Access) (v : Option Word)
    (d' : Dev M) : Prop where
  /-- An in-range read gives the trusted bytes at its offset. -/
  trusted : ∀ offset size sign, a = .read offset size sign →
    configOffset offset + size ≤ configLen →
    ∃ w, v = some w ∧ ∀ k < size, leByte w k = trusted (configOffset offset + k)
  /-- Any other read gives zero. -/
  zero : ∀ offset size sign, a = .read offset size sign →
    configLen < configOffset offset + size → v = some 0
  /-- Behind the buffer nothing is written. -/
  frame : ∀ k, configLen ≤ k → d'.vdev.config k = d.vdev.config k

/-- A read, by what the check of its offset says. -/
theorem emuCheck_read (mmu : CoreMmu M) (d : Dev M) (ho : virtioMmioConfig ≤ offset)
    (hs : IsWidth size) (sign : Bool) :
    vnicEmuCheck mmu d (.read offset size sign) =
      if configOffset offset + size ≤ configLen then
        .ok (some (narrowRead (leWord (fun k =>
          virtioNetGetConfig d.vnet (configOffset offset + k)) size) size sign),
          d.withConfig d.freshConfig)
      else .ok (some 0, d) := by
  have hadd := addSize_configOffset ho hs
  have hs' : size = 1 ∨ size = 2 ∨ size = 4 := hs
  simp only [vnicEmuCheck, if_pos hs', vnicHandleMmioRead, if_pos ho]
  rw [← configOffset]
  by_cases hle : configOffset offset + size ≤ configLen
  · rw [if_pos hle, virtioConfigRead_of_le hs hadd hle]
  · have hzero : narrowRead 0 size sign = 0 := by
      rcases hs with rfl | rfl | rfl <;> cases sign <;> rfl
    rw [if_neg hle, virtioConfigRead, hadd, if_pos (not_le.mp hle)]
    dsimp only
    rw [hzero]

/-- The buffer after a write in range. -/
def Dev.writtenConfig (d : Dev M) (offset : ℕ) (value : Word) (size : ℕ) : ℕ → Byte :=
  fun k => if offset ≤ k ∧ k < offset + size then leByte value (k - offset) else d.vdev.config k

theorem emuCheck_write (mmu : CoreMmu M) (d : Dev M) (value : Word) (ho : virtioMmioConfig ≤ offset)
    (hs : IsWidth size) :
    vnicEmuCheck mmu d (.write offset value size) =
      .ok (none, if configOffset offset + size ≤ configLen then
        d.withConfig (d.writtenConfig (configOffset offset) value size) else d) := by
  have hadd := addSize_configOffset ho hs
  have hs' : size = 1 ∨ size = 2 ∨ size = 4 := hs
  simp only [vnicEmuCheck, vnicHandleMmioWrite, if_pos ho, virtioConfigWrite, if_pos hs']
  rw [← configOffset, hadd]
  by_cases hle : configOffset offset + size ≤ configLen
  · rw [if_neg (not_lt.mpr hle), if_pos hle]
    rfl
  · rw [if_pos (not_le.mp hle), if_neg hle]

/-- An access of the configuration space. -/
theorem configAccess_emuCheck (mmu : CoreMmu M) (d : Dev M) {a : Access} (ha : a.InConfig) :
    ∃ v d', vnicEmuCheck mmu d a = .ok (v, d') ∧
      ConfigAccess d (virtioNetGetConfig d.vnet) a v d' ∧
      ∀ c, ∃ d'', vnicEmuCheck mmu (d.withConfig c) a = .ok (v, d'') := by
  cases a with
  | read offset size sign =>
    obtain ⟨ho, hs⟩ := ha
    by_cases hle : configOffset offset + size ≤ configLen
    · refine ⟨_, _, (emuCheck_read mmu d ho hs sign).trans (if_pos hle), ⟨?_, ?_, ?_⟩, ?_⟩
      · rintro offset size sign ⟨rfl, rfl, rfl⟩ -
        refine ⟨_, rfl, fun k hk => ?_⟩
        rw [leByte_narrowRead _ _ hs hk, leByte_leWord _ hs hk]
      · rintro offset size sign ⟨rfl, rfl, rfl⟩ hgt
        exact absurd hle (not_le.mpr hgt)
      · exact fun k hk => if_neg (not_lt.mpr hk)
      · exact fun c => ⟨_, (emuCheck_read mmu (d.withConfig c) ho hs sign).trans (if_pos hle)⟩
    · refine ⟨_, _, (emuCheck_read mmu d ho hs sign).trans (if_neg hle), ⟨?_, ?_, ?_⟩, ?_⟩
      · rintro offset size sign ⟨rfl, rfl, rfl⟩ hle'
        exact absurd hle' hle
      · exact fun _ _ _ _ _ => rfl
      · exact fun _ _ => rfl
      · exact fun c => ⟨_, (emuCheck_read mmu (d.withConfig c) ho hs sign).trans (if_neg hle)⟩
  | write offset value size =>
    obtain ⟨ho, hs⟩ := ha
    refine ⟨_, _, emuCheck_write mmu d value ho hs, ⟨?_, ?_, ?_⟩, ?_⟩
    · intro offset size sign he
      cases he
    · intro offset size sign he
      cases he
    · intro k hk
      split
      · rename_i hle
        exact if_neg (by omega)
      · rfl
    · exact fun c => ⟨_, emuCheck_write mmu (d.withConfig c) value ho hs⟩

/-! ## Runs -/

/-- No access changes what the configuration is filled from. -/
theorem getConfig_mmioStep {mmu : CoreMmu M} {d' : Dev M} {a : Access}
    (h : mmioStep mmu d a = .ok d') : virtioNetGetConfig d'.vnet = virtioNetGetConfig d.vnet := by
  have he := effect_of_mmioStep h
  generalize a.target = o at he
  cases he with
  | num v => rfl
  | ready v =>
    by_cases hv : v = 0
    · rw [writeQueueReady_of_zero mmu d hv]
      rfl
    · rw [writeQueueReady_of_ne mmu d hv]
      rfl
  | notify v q hn =>
    simp only [virtioQueueNotify] at hn
    split at hn
    · cases hn
      rfl
    · split at hn
      · cases hn
      · cases hn
        rfl
  | status v hs =>
    rcases writeStatus_eq_ok hs with ⟨-, -, rfl⟩ | ⟨-, rfl⟩
    · obtain ⟨b, hb⟩ := statusTail_eq
        (d.accept (d.mmio.driverFeatures &&& d.vdev.hostFeatures)) (v.setWidth 8)
      rw [hb]
      rfl
    · obtain ⟨b, hb⟩ := statusTail_eq d (v.setWidth 8)
      rw [hb]
  | quiet o hq _ _ _ => rw [hq.vnet]

theorem getConfig_mmioRun {mmu : CoreMmu M} {d₀ : Dev M} {as : List Access}
    (h : MmioRun mmu d₀ as d) : virtioNetGetConfig d.vnet = virtioNetGetConfig d₀.vnet := by
  induction h with
  | nil d => rfl
  | cons _ hs _ ih => rw [ih, getConfig_mmioStep hs]

/-- **The configuration space cannot be falsified.**  Whatever registers were accessed before,
an access of the configuration space ends; a read in range gives the bytes that the device was
set up with, the value of a read depends on no byte of the buffer, and no byte behind the buffer
is written. -/
theorem config_unfalsifiable (mmu : CoreMmu M) {d₀ d : Dev M} {as : List Access}
    (h : MmioRun mmu d₀ as d) {a : Access} (ha : a.InConfig) :
    ∃ v d', vnicEmuCheck mmu d a = .ok (v, d') ∧
      ConfigAccess d (virtioNetGetConfig d₀.vnet) a v d' ∧
      ∀ c, ∃ d'', vnicEmuCheck mmu (d.withConfig c) a = .ok (v, d'') := by
  rw [← getConfig_mmioRun h]
  exact configAccess_emuCheck mmu d ha

/-- A driver that overwrites the MAC address and the MTU, and reads the MTU with a part of the
bytes in front of it. -/
theorem config_unfalsifiable_overwritten :
    ∃ d, MmioRun flatMmu (Dev.init () fun _ => .zero)
        [.write 0x100 0xffffffff 4, .write 0x10a 9000 2, .write 0x109 0xab 1] d ∧
      ∃ w d', vnicEmuCheck flatMmu d (.read 0x108 4 false) = .ok (some w, d') ∧
        (List.range 4).map (leByte w) = [1, 0, 0xdc, 0x05] := by
  obtain ⟨d, hd, -⟩ : ∃ d, MmioRun flatMmu (Dev.init () fun _ => .zero)
      [.write 0x100 0xffffffff 4, .write 0x10a 9000 2, .write 0x109 0xab 1] d ∧
        d.vdev.config 9 = 0xab :=
    exists_run_of_exec (by decide)
  obtain ⟨v, d', hv, ha, -⟩ := config_unfalsifiable flatMmu hd
    (show Access.InConfig (.read 0x108 4 false) from ⟨by decide, .inr (.inr rfl)⟩)
  obtain ⟨w, rfl, hw⟩ := ha.trusted _ _ _ rfl (by decide)
  refine ⟨d, hd, w, d', hv, ?_⟩
  rw [List.map_congr_left fun k hk => hw k (List.mem_range.mp hk)]
  decide

end TrustedGateway
