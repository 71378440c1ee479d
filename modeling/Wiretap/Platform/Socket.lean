import Wiretap.Fault

/-!
# Sockets of agents

The channel of an agent is a socket in a directory that all agents share. Its file is named after
the channel.

Results:

* `joinPath_append`: what stands behind a path is of no account to where it is joined.
-/

namespace Wiretap.Platform

/-- A path within a directory. An absolute path stays as it is. -/
def joinPath (dir path : String) : String :=
  if path.toList.head? = some '/' then path
  else if dir.toList.isEmpty ∨ dir.toList.getLast? = some '/' then dir ++ path
  else dir ++ "/" ++ path

/-- Model of `UnixSocketProvider::socket_path`: the path of the socket of a channel. -/
def socketPath (dir channel : String) : String := joinPath dir (channel ++ ".sock")

/-- No socket has a path of this many bytes or more. -/
def socketPathLimit : Nat := 108

/-- At most this much is taken from a socket by one read into an empty buffer. -/
def readChunk : Nat := 4096

/-- Whether a directory is kept is up to the first character of the path that is joined to it, so
what stands further behind can be appended afterwards. -/
theorem joinPath_append {rest : String} (h : rest.toList.head? ≠ some '/') (dir path : String) :
    joinPath dir (path ++ rest) = joinPath dir path ++ rest := by
  have hrooted : (path ++ rest).toList.head? = some '/' ↔ path.toList.head? = some '/' := by
    rw [String.toList_append]
    cases path.toList with
    | nil => simpa using h
    | cons c cs => simp
  unfold joinPath
  simp only [hrooted]
  split
  · rfl
  · split <;> simp only [String.append_assoc]

end Wiretap.Platform
