import SentinelStack.Lib.Bytes
import Mathlib.Data.List.Basic

/- ELF files as libelf shows them to the tools: program headers, and sections
   with their names and data. The tools search the section table by name; some
   stop at the first section of a name, some keep the last. A tool that writes
   does so at an offset of the file, whatever is there: `ElfLayout` has the headers,
   and its image of a file says which bytes of the file are whose. -/
namespace SentinelStack.Cc
open SentinelStack.Lib

/-- `Elf_Data`: `d_size` bytes at `d_buf`, or a size with no buffer (`SHT_NOBITS`). -/
inductive ElfData where
  | bytes (buf : List U8)
  | noBuf (size : Nat)
  deriving DecidableEq, Repr

namespace ElfData

def size : ElfData → Nat
  | bytes buf => buf.length
  | noBuf size => size

def hasBuf : ElfData → Bool
  | bytes _ => true
  | noBuf _ => false

/-- What `EVP_DigestUpdate` reads; without a buffer there must be nothing to read. -/
def digested : ElfData → Option (List U8)
  | bytes buf => some buf
  | noBuf 0 => some []
  | noBuf (_ + 1) => none

/-- `data && data->d_buf && data->d_size > 0` guards the uses of an optional section's bytes. -/
def optional : Option ElfData → List U8
  | some (bytes buf) => buf
  | _ => []

end ElfData

/-- `GElf_Sym`, with its name resolved in the linked string table. -/
structure Symbol where
  name : Option CStr
  value : U64
  size : U64
  info : U8
  deriving DecidableEq, Repr

/-- `STT_FUNC`. -/
def Symbol.IsFunc (s : Symbol) : Prop := s.info &&& 0xf = 2

instance (s : Symbol) : Decidable s.IsFunc := inferInstanceAs (Decidable (_ = _))

/-- A section: the name `elf_strptr` finds, `sh_size`, and what `elf_getdata` returns (`none` for
    NULL). `symtab` holds the symbols of a section of type `SHT_SYMTAB`. -/
structure Section where
  name : Option CStr
  size : Nat
  data : Option ElfData
  symtab : Option (List Symbol)
  size_data : ∀ d, data = some d → d.size = size
  deriving DecidableEq

def Section.ofBytes (name : CStr) (buf : List U8) : Section where
  name := some name
  size := buf.length
  data := some (.bytes buf)
  symtab := none
  size_data := by
    intro d hd
    rw [← Option.some.inj hd]
    rfl

/-- `GElf_Phdr`, as far as the loader reads it. -/
structure Phdr where
  isLoad : Bool
  vaddr : U64
  deriving DecidableEq, Repr

/-- An ELF file: `hasShstrtab` when `elf_getshdrstrndx` succeeds. -/
structure ElfImage where
  phdrs : List Phdr
  hasShstrtab : Bool
  sections : List Section
  deriving DecidableEq

/-- What is at a path: `unopenable` when `open` fails, `notElf` when `elf_begin` does. -/
inductive FileContent where
  | unopenable
  | notElf
  | elf (image : ElfImage)
  deriving DecidableEq

namespace ElfImage

/-- The address of the first `PT_LOAD` segment, 0 without one. -/
def loadBase (img : ElfImage) : U64 := ((img.phdrs.find? (·.isLoad)).map (·.vaddr)).getD 0

def named (img : ElfImage) (name : CStr) : List Section := img.sections.filter fun s => s.name = some name

/-- The data of the last section of the name: a search that goes on after a match. -/
def lastData (img : ElfImage) (name : CStr) : Option ElfData := (img.named name).getLast?.bind (·.data)

/-- The data of the first section of the name: a search that stops at a match. -/
def firstData (img : ElfImage) (name : CStr) : Option ElfData := (img.named name).head?.bind (·.data)

def symtabs (img : ElfImage) : List (List Symbol) :=
  (img.sections.filter (·.data.isSome)).filterMap (·.symtab)

end ElfImage

/-! Files and offsets. -/

/-- `GElf_Shdr` with its name: `noBits` for the type `SHT_NOBITS`, then `sh_offset` and `sh_size`. -/
structure SectionHeader where
  name : Option CStr
  noBits : Bool
  offset : Nat
  size : Nat
  deriving DecidableEq, Repr

/-- What `elf_getdata` returns for the section: its bytes of the file, NULL when the file ends
    before they do. A section without bits has a size only, wherever its offset points. -/
def SectionHeader.data (h : SectionHeader) (file : List U8) : Option ElfData :=
  if h.noBits then some (.noBuf h.size)
  else if h.offset + h.size ≤ file.length then some (.bytes ((file.drop h.offset).take h.size))
  else none

theorem SectionHeader.size_data (h : SectionHeader) (file : List U8) : ∀ d, h.data file = some d → d.size = h.size := by
  intro d hd
  unfold data at hd
  split at hd
  · rw [← Option.some.inj hd]
    rfl
  · split at hd
    next hin =>
      rw [← Option.some.inj hd, ElfData.size, List.length_take, List.length_drop]
      omega
    · cases hd

def SectionHeader.view (h : SectionHeader) (file : List U8) : Section where
  name := h.name
  size := h.size
  data := h.data file
  symtab := none
  size_data := h.size_data file

/-- What libelf reads from the header tables and the section names. -/
structure ElfLayout where
  phdrs : List Phdr
  hasShstrtab : Bool
  headers : List SectionHeader
  deriving DecidableEq

namespace ElfLayout

def image (l : ElfLayout) (file : List U8) : ElfImage where
  phdrs := l.phdrs
  hasShstrtab := l.hasShstrtab
  sections := l.headers.map (·.view file)

def named (l : ElfLayout) (name : CStr) : List SectionHeader := l.headers.filter fun h => h.name = some name

theorem lastData_image (l : ElfLayout) (file : List U8) (name : CStr) :
    (l.image file).lastData name = (l.named name).getLast?.bind (·.data file) := by
  have hnamed : (l.image file).named name = (l.named name).map (·.view file) := by
    rw [ElfImage.named, image, List.filter_map]
    rfl
  rw [ElfImage.lastData, hnamed, List.getLast?_map, Option.bind_map]
  rfl

end ElfLayout

/-- The file at a path, with libelf's reading of the header tables. -/
def elfContent (elfBegin : List U8 → Option ElfLayout) (file : List U8) : FileContent :=
  match elfBegin file with
  | none => .notElf
  | some l => .elf (l.image file)

/-- A section whose bytes lie apart from a write keeps its data; one without bits in any case. -/
theorem SectionHeader.data_writeAt {h : SectionHeader} {offset : Nat} {new file : List U8}
    (hin : offset + new.length ≤ file.length)
    (hapart : h.noBits ∨ h.offset + h.size ≤ offset ∨ offset + new.length ≤ h.offset) :
    h.data (writeAt offset new file) = h.data file := by
  unfold data
  rw [length_writeAt hin]
  split
  · rfl
  next hbits => rw [slice_writeAt hin (hapart.resolve_left hbits)]

end SentinelStack.Cc
