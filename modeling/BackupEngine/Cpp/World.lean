import BackupEngine.Cpp.Bytes

/-!
# Heap and files

What a program finds outside its own objects: the storage `new` hands out, which a constructor may leave as it is, and the
files of the disk. An address names one allocation; it is not handed out a second time.
-/

namespace Cpp

/-- A non-null pointer: the object it points to. -/
abbrev Addr := Nat

/-- What the storage of a new object holds where no constructor writes. The members of an object are told apart by number, in
order of declaration. -/
structure Storage where
  flag : Nat → Bool
  word : Nat → UInt32
  pointer : Nat → Option Addr

/-- The files by path. `opens` says which paths can be opened for writing. -/
structure Disk where
  opens : List UInt8 → Bool
  files : List UInt8 → Option (List UInt8)

/-- Heap and disk. -/
structure World where
  next : Addr
  memory : Addr → Storage
  disk : Disk

/-- Storage that holds zeros, and a disk without files. -/
def World.blank : World where
  next := 0
  memory := fun _ => { flag := fun _ => false, word := fun _ => 0, pointer := fun _ => none }
  disk := { opens := fun _ => true, files := fun _ => none }

/-- `new`: an address and what its storage holds. -/
def World.alloc (w : World) : Addr × Storage × World := (w.next, w.memory w.next, { w with next := w.next + 1 })

/-- The bytes of a literal. -/
def chars (s : String) : List UInt8 := s.toList.map fun c => UInt8.ofNat c.toNat

/-- `c_str`: a reader of the pointer stops at the first zero. -/
def cStr (s : List UInt8) : List UInt8 := s.takeWhile (· != 0)

/-- An `ofstream` over a path, opened, written and closed. -/
def Disk.write (d : Disk) (path content : List UInt8) : Disk :=
  { d with files := fun p => if p = path then some content else d.files p }

end Cpp
