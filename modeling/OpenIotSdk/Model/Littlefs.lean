import OpenIotSdk.Library.Memory
import Mathlib.Algebra.BigOperators.Group.List.Basic
import Mathlib.Data.BitVec

/-! # The block device of the littlefs example

`main.c` of `littlefs`: the last two sectors of the internal flash are the blocks of a littlefs,
whose callbacks read, program and erase them. The flash itself is a parameter. -/

namespace OpenIotSdk.Littlefs

abbrev Byte := BitVec 8

/-- `MDH_FLASH_INVALID_SIZE`. -/
def invalidSize : BitVec 32 := 0xFFFFFFFF

/-! ## The flash -/

/-- How an internal flash is divided: the sizes of its sectors from the start address on, each of
which consists of whole pages. -/
structure Layout where
  start : ℕ
  sectors : List ℕ
  page : ℕ
  fits : start + sectors.sum ≤ 2 ^ 32
  nonempty : sectors ≠ []
  sizes : ∀ size ∈ sectors, 0 < size ∧ size < invalidSize.toNat ∧ page ∣ size
  pageFits : page < 2 ^ 32

/-- The sector of an offset: its beginning and its size. -/
def sectorAt : List ℕ → ℕ → Option (ℕ × ℕ)
  | [], _ => none
  | size :: sectors, off =>
      if off < size then some (0, size)
      else (sectorAt sectors (off - size)).map fun (first, size') => (size + first, size')

namespace Layout

variable (layout : Layout)

/-- The whole flash. -/
def region : Region := ⟨layout.start, layout.sectors.sum⟩

/-- The sector of an address. -/
def sector (addr : BitVec 32) : Option Region :=
  if layout.start ≤ addr.toNat then
    (sectorAt layout.sectors (addr.toNat - layout.start)).map fun (first, size) =>
      ⟨layout.start + first, size⟩
  else none

/-- Pages that can be programmed. -/
def Pages (addr : BitVec 32) (size : ℕ) : Prop :=
  (Region.mk addr.toNat size).Within layout.region ∧ layout.page ∣ addr.toNat - layout.start ∧
    layout.page ∣ size

end Layout

/-- `flash_api.h`, as it is documented. The first argument of the calls that can fail is how many
calls there were before: a call may fail at one time and succeed at another one. A result of 0 is a
success. Whatever the result is, a call leaves alone what it is not for. -/
structure Flash where
  layout : Layout
  erased : Byte -- `mdh_flash_get_erase_value`
  cell : Byte → Byte → Byte -- what a cell holds when a value is programmed over another
  getStartAddress : BitVec 32
  getSize : BitVec 32
  getPageSize : BitVec 32
  getSectorSize : BitVec 32 → BitVec 32
  /-- The result, and what is in the buffer then. -/
  read : ℕ → Memory Byte → (addr size : BitVec 32) → ℤ × List Byte
  /-- The result, and the memory then. -/
  programPage : ℕ → Memory Byte → (addr : BitVec 32) → (data : List Byte) → ℤ × Memory Byte
  eraseSector : ℕ → Memory Byte → (addr : BitVec 32) → ℤ × Memory Byte
  start_eq : getStartAddress = .ofNat 32 layout.start
  size_eq : getSize = .ofNat 32 layout.sectors.sum
  page_eq : getPageSize = .ofNat 32 layout.page
  sectorSize_eq : ∀ addr, getSectorSize addr =
    match layout.sector addr with
    | some sector => .ofNat 32 sector.size
    | none => invalidSize
  reads : ∀ time m addr size, (Region.mk addr.toNat size.toNat).Within layout.region →
    (read time m addr size).1 = 0 → (read time m addr size).2 = m.load addr.toNat size.toNat
  programs : ∀ time m addr data, layout.Pages addr data.length →
    (programPage time m addr data).1 = 0 →
    (programPage time m addr data).2.load addr.toNat data.length =
      (m.load addr.toNat data.length).zipWith cell data
  programs_only : ∀ time m addr data, layout.Pages addr data.length →
    ∀ x, ¬ (Region.mk addr.toNat data.length).Contains x → (programPage time m addr data).2 x = m x
  erases : ∀ time m addr sector, layout.sector addr = some sector →
    (eraseSector time m addr).1 = 0 →
    (eraseSector time m addr).2.load sector.start sector.size = List.replicate sector.size erased
  erases_only : ∀ time m addr sector, layout.sector addr = some sector →
    ∀ x, ¬ sector.Contains x → (eraseSector time m addr).2 x = m x

/-! ## `main.c` -/

/-- `struct lfs_config` with its context, as far as the callbacks and littlefs' checks read them. -/
structure Config where
  flashAddr : BitVec 32
  blockSize : BitVec 32
  progSize : BitVec 32
  deriving DecidableEq

/-- `main` up to the configuration, which it gives up for two last sectors of different sizes. -/
def setUp (flash : Flash) : Option Config :=
  let flashEnd := flash.getStartAddress + flash.getSize
  let sectorSize := flash.getSectorSize (flashEnd - 1)
  if sectorSize ≠ flash.getSectorSize (flashEnd - sectorSize - 1) then none
  else
    let lfsSize := 2 * sectorSize
    some
      { flashAddr := flashEnd - lfsSize
        blockSize := sectorSize
        progSize := flash.getPageSize }

namespace Config

variable (config : Config) (flash : Flash) (time : ℕ) (m : Memory Byte)

/-- `to_flash_addr`. -/
def toFlashAddr (block off : BitVec 32) : BitVec 32 :=
  config.flashAddr + block * config.blockSize + off

/-- `lfs_bd_read`. -/
def lfsBdRead (block off size : BitVec 32) : ℤ × List Byte :=
  flash.read time m (config.toFlashAddr block off) size

/-- `lfs_bd_prog`. -/
def lfsBdProg (block off : BitVec 32) (buffer : List Byte) : ℤ × Memory Byte :=
  flash.programPage time m (config.toFlashAddr block off) buffer

/-- `lfs_bd_erase`. -/
def lfsBdErase (block : BitVec 32) : ℤ × Memory Byte :=
  flash.eraseSector time m (config.toFlashAddr block 0)

/-- `lfs_bd_sync`. -/
def lfsBdSync : ℤ := 0

end Config

/-! ## The device -/

/-- A call of littlefs. -/
inductive Call where
  | read (block off size : BitVec 32)
  | prog (block off : BitVec 32) (buffer : List Byte)
  | erase (block : BitVec 32)
  | sync
  deriving DecidableEq

/-- The checks of littlefs, by `block_count` and `block_size`; it programs multiples of
`prog_size`. -/
def Call.inRange (config : Config) : Call → Bool
  | .read block off size =>
      block.toNat < 2 ∧ off.toNat < config.blockSize.toNat ∧
        off.toNat + size.toNat ≤ config.blockSize.toNat
  | .prog block off buffer =>
      block.toNat < 2 ∧ off.toNat < config.blockSize.toNat ∧
        off.toNat + buffer.length ≤ config.blockSize.toNat ∧
        config.progSize.toNat ∣ off.toNat ∧ config.progSize.toNat ∣ buffer.length
  | .erase block => block.toNat < 2
  | .sync => true

/-- What a callback returns, and what is in the buffer that littlefs has passed to read to. -/
structure Answer where
  result : ℤ
  buffer : List Byte := []

structure State where
  memory : Memory Byte
  answers : List Answer -- of all calls, in order

/-- A call that passes the checks of littlefs. -/
def step (flash : Flash) (config : Config) (s : State) (call : Call) : Option State :=
  let time := s.answers.length
  if call.inRange config then
    some (match call with
      | .read block off size =>
          let (result, buffer) := config.lfsBdRead flash time s.memory block off size
          ⟨s.memory, s.answers ++ [⟨result, buffer⟩]⟩
      | .prog block off buffer =>
          let (result, memory) := config.lfsBdProg flash time s.memory block off buffer
          ⟨memory, s.answers ++ [{ result }]⟩
      | .erase block =>
          let (result, memory) := config.lfsBdErase flash time s.memory block
          ⟨memory, s.answers ++ [{ result }]⟩
      | .sync => ⟨s.memory, s.answers ++ [{ result := Config.lfsBdSync }]⟩)
  else none

end OpenIotSdk.Littlefs
