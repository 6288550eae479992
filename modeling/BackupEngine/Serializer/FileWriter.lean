import BackupEngine.Serializer.Serializer

/-!
# Files of bytes

`createFileWith` and `writeToFile` put a vector into a file, byte by byte; `readSerializedObjectFromFile` reads a file back.
A path is what stands before the terminating zero of the `const char*`.
-/

namespace Serializer

open Cpp

/-- The common body of the two writers. A path that cannot be opened is left alone; the counter of the loop is an `int`. -/
def putFile (path content : List UInt8) (d : Disk) : Comp Disk :=
  if d.opens path then do
    let _ ← int content.length
    return d.write path content
  else return d

def createFileWith (path content : List UInt8) (d : Disk) : Comp Disk := putFile path content d

def writeToFile (so : SerializedObject) (path : List UInt8) (d : Disk) : Comp Disk := putFile path so d

/-- A file that cannot be opened reads as an empty body. -/
def readSerializedObjectFromFile (path : List UInt8) (d : Disk) : SerializedObject := (d.files path).getD []

/-- A body below `2^31` bytes is read back from the file it was written to. -/
theorem readSerializedObjectFromFile_writeToFile {so : SerializedObject} {path : List UInt8} {d : Disk}
    (hopen : d.opens path = true) (hlen : so.length < 2 ^ 31) :
    ∃ d', writeToFile so path d = .ok d' ∧ readSerializedObjectFromFile path d' = so := by
  refine ⟨d.write path so, ?_, ?_⟩
  · have hint : int so.length = .ok (so.length : Int) := int_of_inInt ⟨by omega, by omega⟩
    rw [writeToFile, putFile, if_pos hopen, hint]
    rfl
  · simp only [readSerializedObjectFromFile, Disk.write, if_true, Option.getD_some]

end Serializer
