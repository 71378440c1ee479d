import Wiretap.Text.Utf8

/-!
# Names of running processes

The system lists a process under the name of its file, of which it keeps a limited number of bytes.
-/

namespace Wiretap.Platform

/-- Bytes that the system keeps of a name. -/
def keptBytes : Nat := 15

/-- The name under which `ProcfsEnumerator` lists a program in a file of that name. -/
def listedName (fileName : String) : String :=
  Text.Utf8.lossy (fileName.toUTF8.toList.take keptBytes)

end Wiretap.Platform
