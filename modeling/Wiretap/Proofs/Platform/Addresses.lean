import Wiretap.Config.Basic
import Wiretap.Platform.Socket
import Wiretap.Proofs.Text.Digits

/-!
# Addresses of agents

A channel is named after a process, and a socket after a channel. What stands behind the last dash
of the name are the digits of the process, whatever the prefix is: it may be empty, have dashes,
digits and slashes of its own, or begin at the root, so that the directory of the sockets is left
out of the path.

Different texts may be paths to the same place. So paths are also compared by the names that they
pass through.

Results:

* `channelName_eq_iff`: a name tells the prefix and the process.
* `socketPath_channelName`: a socket's path is that of the prefix with the process behind it.
* `namesOn_joinPath`: a path goes on from its directory, unless it begins at the root.
* `samePlace_dash_iff`: where two paths lead is told apart by what follows their last dashes.
* `channels_apart`: neither channels nor sockets of different processes are ever the same.
-/

namespace Wiretap.Platform

open Text (digits)

/-! ## Places -/

/-- The path begins at the root. -/
def IsRooted (path : String) : Prop := path.toList.head? = some '/'

/-- Between two slashes stands a name, unless nothing does, or a single full stop, which leads
nowhere else. Two full stops are a name, since links decide where they lead. -/
def isName (part : List Char) : Bool := !part.isEmpty && part != ['.']

/-- The names that a path passes through. -/
def namesOn (path : String) : List (List Char) := (path.toList.splitOn '/').filter isName

/-- The paths set out from the same place, which is the root or the current directory, and pass
through the same names. -/
def SamePlace (a b : String) : Prop := (IsRooted a ↔ IsRooted b) ∧ namesOn a = namesOn b

instance (path : String) : Decidable (IsRooted path) :=
  inferInstanceAs (Decidable (path.toList.head? = some '/'))

instance (a b : String) : Decidable (SamePlace a b) :=
  inferInstanceAs (Decidable ((IsRooted a ↔ IsRooted b) ∧ namesOn a = namesOn b))

theorem SamePlace.of_eq {a b : String} (h : a = b) : SamePlace a b := h ▸ ⟨Iff.rfl, rfl⟩

theorem isName_dash (front back : List Char) : isName (front ++ '-' :: back) = true := by
  cases front with
  | nil => simp [isName]
  | cons c front => simp [isName]

/-! ## Joined paths -/

theorem isRooted_append_iff {a b : String} :
    IsRooted (a ++ b) ↔ IsRooted a ∨ a = "" ∧ IsRooted b := by
  unfold IsRooted
  rw [String.toList_append, List.head?_append, Option.or_eq_some_iff, List.head?_eq_none_iff,
    String.toList_eq_nil_iff]

theorem isRooted_append_of_ne {a : String} (h : a ≠ "") (b : String) :
    IsRooted (a ++ b) ↔ IsRooted a := by
  rw [isRooted_append_iff, or_iff_left fun hempty => h hempty.1]

theorem namesOn_empty : namesOn "" = [] := rfl

/-- A slash sets names apart. -/
theorem namesOn_slash (a b : String) : namesOn (a ++ "/" ++ b) = namesOn a ++ namesOn b := by
  have hslash : (a ++ "/" ++ b).toList = a.toList ++ '/' :: b.toList := by simp
  rw [namesOn, hslash, List.splitOn_append_cons_self, List.filter_append]
  rfl

/-- A slash at the end of a path is of no account. -/
theorem namesOn_slash_end (path : String) : namesOn (path ++ "/") = namesOn path := by
  have hslash := namesOn_slash path ""
  rwa [String.append_empty, namesOn_empty, List.append_nil] at hslash

theorem exists_of_slash_end {path : String} (h : path.toList.getLast? = some '/') :
    ∃ front, path = front ++ "/" := by
  obtain ⟨front, hpath⟩ := List.getLast?_eq_some_iff.mp h
  refine ⟨String.ofList front, ?_⟩
  rw [← String.toList_inj, hpath, String.toList_append, String.toList_ofList]
  rfl

theorem joinPath_of_isRooted {path : String} (h : IsRooted path) (dir : String) :
    joinPath dir path = path := if_pos h

/-- A directory stays in front of a path that does not begin at the root. -/
theorem joinPath_cases {path : String} (h : ¬ IsRooted path) (dir : String) :
    dir = "" ∧ joinPath dir path = path ∨
      (∃ front, dir = front ++ "/" ∧ joinPath dir path = front ++ "/" ++ path) ∨
      dir ≠ "" ∧ joinPath dir path = dir ++ "/" ++ path := by
  have hhead : ¬ path.toList.head? = some '/' := h
  rw [joinPath, if_neg hhead]
  split
  next hdir =>
    rcases hdir with hempty | hslash
    · obtain rfl : dir = "" := by simpa using hempty
      exact .inl ⟨rfl, String.empty_append⟩
    · obtain ⟨front, rfl⟩ := exists_of_slash_end hslash
      exact .inr (.inl ⟨front, rfl, rfl⟩)
  next hdir =>
    refine .inr (.inr ⟨?_, rfl⟩)
    rintro rfl
    exact hdir (.inl rfl)

theorem isRooted_joinPath_iff {dir path : String} :
    IsRooted (joinPath dir path) ↔ IsRooted path ∨ IsRooted dir := by
  by_cases h : IsRooted path
  · rw [joinPath_of_isRooted h, or_iff_left_of_imp fun _ => h]
  · rw [or_iff_right h]
    rcases joinPath_cases h dir with ⟨rfl, hjoined⟩ | ⟨front, rfl, hjoined⟩ | ⟨hne, hjoined⟩
    · rw [hjoined]
      exact iff_of_false h (by decide)
    · rw [hjoined, isRooted_append_of_ne (by simp)]
    · rw [hjoined, String.append_assoc, isRooted_append_of_ne hne]

/-- The names of a joined path are those of the directory and then those of the path, unless that
begins at the root. -/
theorem namesOn_joinPath (dir path : String) :
    namesOn (joinPath dir path) = (if IsRooted path then [] else namesOn dir) ++ namesOn path := by
  by_cases h : IsRooted path
  · rw [joinPath_of_isRooted h, if_pos h, List.nil_append]
  · rw [if_neg h]
    rcases joinPath_cases h dir with ⟨rfl, hjoined⟩ | ⟨front, rfl, hjoined⟩ | ⟨-, hjoined⟩
    · rw [hjoined, namesOn_empty, List.nil_append]
    · rw [hjoined, namesOn_slash, namesOn_slash_end]
    · rw [hjoined, namesOn_slash]

/-! ## The last slash and the last dash -/

theorem exists_last_slash {text : List Char} (h : '/' ∈ text) :
    ∃ front name, text = front ++ '/' :: name ∧ '/' ∉ name := by
  obtain ⟨back, front, heq, hback⟩ := List.eq_append_cons_of_mem (List.mem_reverse.mpr h)
  refine ⟨front.reverse, back.reverse, ?_, by simpa using hback⟩
  rw [← List.reverse_reverse text, heq]
  simp

/-- What follows a path belongs to its last part. -/
theorem exists_splitOn (path : List Char) : ∃ parts name, '/' ∉ name ∧
    ∀ rest, (path ++ rest).splitOn '/' = parts ++ (name ++ rest).splitOn '/' := by
  by_cases h : '/' ∈ path
  · obtain ⟨front, name, rfl, hname⟩ := exists_last_slash h
    refine ⟨front.splitOn '/', name, hname, fun rest => ?_⟩
    rw [List.append_assoc, List.cons_append, List.splitOn_append_cons_self]
  · exact ⟨[], path, h, fun rest => rfl⟩

theorem eq_nil_of_last {c : Char} {mid back back' : List Char} (h : c ∉ back)
    (heq : c :: back = mid ++ c :: back') : mid = [] := by
  cases mid with
  | nil => rfl
  | cons d mid =>
    obtain ⟨-, rfl⟩ := List.cons_eq_cons.mp heq
    exact absurd (List.mem_append_right mid List.mem_cons_self) h

/-- A text is cut in one way only at the last place of a character. -/
theorem append_last_inj {c : Char} {front front' back back' : List Char} (h : c ∉ back)
    (h' : c ∉ back') :
    front ++ c :: back = front' ++ c :: back' ↔ front = front' ∧ back = back' := by
  constructor
  · intro heq
    rcases List.append_eq_append_iff.mp heq with ⟨mid, hfront, hback⟩ | ⟨mid, hfront, hback⟩
    · obtain rfl := eq_nil_of_last h hback
      exact ⟨by simpa using hfront.symm, by simpa using hback⟩
    · obtain rfl := eq_nil_of_last h' hback
      exact ⟨by simpa using hfront, by simpa using hback.symm⟩
  · rintro ⟨rfl, rfl⟩
    rfl

/-! ## What follows the last dash -/

/-- A text with neither a slash nor a dash. Behind a dash, it is the end of the last name of a
path, and that dash is the last one. -/
def Unbroken (text : String) : Prop := '/' ∉ text.toList ∧ '-' ∉ text.toList

theorem unbroken_empty : Unbroken "" := ⟨List.not_mem_nil, List.not_mem_nil⟩

theorem toList_dash (path text : String) :
    (path ++ "-" ++ text).toList = path.toList ++ '-' :: text.toList := by
  rw [String.toList_append, String.toList_append, List.append_assoc]
  rfl

theorem isRooted_dash_iff (path text : String) :
    IsRooted (path ++ "-" ++ text) ↔ IsRooted (path ++ "-") :=
  isRooted_append_of_ne (by simp) text

theorem exists_namesOn (path : String) : ∃ parents name, ∀ text, Unbroken text →
    namesOn (path ++ "-" ++ text) = parents ++ [name ++ '-' :: text.toList] := by
  obtain ⟨parts, name, hname, hparts⟩ := exists_splitOn path.toList
  refine ⟨parts.filter isName, name, fun text htext => ?_⟩
  have hlast : '/' ∉ name ++ '-' :: text.toList := by simp [hname, htext.1]
  rw [namesOn, toList_dash, hparts, List.splitOn_eq_singleton hlast, List.filter_append,
    List.filter_cons_of_pos (isName_dash name text.toList), List.filter_nil]

/-- Ways of names that end behind a dash agree where they agree up to it and behind it. -/
theorem concat_dash_inj {parents parents' : List (List Char)} {name name' : List Char}
    {s t : String} (hs : Unbroken s) (ht : Unbroken t) :
    parents ++ [name ++ '-' :: s.toList] = parents' ++ [name' ++ '-' :: t.toList] ↔
      (parents = parents' ∧ name = name') ∧ s = t := by
  rw [List.append_singleton_inj, append_last_inj hs.2 ht.2, String.toList_inj, and_assoc]

/-- **Places are told apart by what follows the last dash.** -/
theorem samePlace_dash_iff {a b s t : String} (hs : Unbroken s) (ht : Unbroken t) :
    SamePlace (a ++ "-" ++ s) (b ++ "-" ++ t) ↔ SamePlace (a ++ "-") (b ++ "-") ∧ s = t := by
  obtain ⟨parents, name, ha⟩ := exists_namesOn a
  obtain ⟨parents', name', hb⟩ := exists_namesOn b
  have hends : namesOn (a ++ "-") = namesOn (b ++ "-") ↔ parents = parents' ∧ name = name' := by
    have ha₀ := ha "" unbroken_empty
    have hb₀ := hb "" unbroken_empty
    rw [String.append_empty] at ha₀ hb₀
    rw [ha₀, hb₀, concat_dash_inj unbroken_empty unbroken_empty, and_iff_left rfl]
  rw [SamePlace, SamePlace, isRooted_dash_iff, isRooted_dash_iff, ha s hs, hb t ht,
    concat_dash_inj hs ht, hends]
  exact and_assoc.symm

/-! ## Channels and sockets -/

/-- What follows the last dash of a socket's path. -/
def socketEnding (pid : UInt32) : String := toString pid.toNat ++ ".sock"

theorem toList_socketEnding (pid : UInt32) :
    (socketEnding pid).toList = digits pid.toNat ++ ".sock".toList := by
  rw [socketEnding, String.toList_append, Text.toList_toString]

theorem unbroken_socketEnding (pid : UInt32) : Unbroken (socketEnding pid) := by
  rw [Unbroken, toList_socketEnding]
  exact ⟨by simp [Text.notMem_digits], by simp [Text.notMem_digits]⟩

theorem socketEnding_inj {pid pid' : UInt32} :
    socketEnding pid = socketEnding pid' ↔ pid = pid' := by
  rw [← String.toList_inj, toList_socketEnding, toList_socketEnding, List.append_left_inj,
    Text.digits_inj, UInt32.toNat_inj]

theorem toList_channelName (hook : HookConfig) (pid : UInt32) :
    (hook.channelName pid).toList = hook.channelPrefix.toList ++ '-' :: digits pid.toNat := by
  rw [HookConfig.channelName, toList_dash, Text.toList_toString]

/-- **The name of a channel tells the prefix and the process.** -/
theorem channelName_eq_iff {hook hook' : HookConfig} {pid pid' : UInt32} :
    hook.channelName pid = hook'.channelName pid' ↔
      hook.channelPrefix = hook'.channelPrefix ∧ pid = pid' := by
  have hdash : ∀ n, '-' ∉ digits n := Text.notMem_digits rfl
  rw [← String.toList_inj, toList_channelName, toList_channelName,
    append_last_inj (hdash _) (hdash _), String.toList_inj, Text.digits_inj, UInt32.toNat_inj]

/-- The directory and the prefix come first, whether the prefix replaces the directory or not. -/
theorem socketPath_channelName (dir : String) (hook : HookConfig) (pid : UInt32) :
    socketPath dir (hook.channelName pid) =
      joinPath dir hook.channelPrefix ++ "-" ++ socketEnding pid := by
  have hdash : ("-" ++ socketEnding pid).toList.head? ≠ some '/' := by simp
  rw [String.append_assoc, ← joinPath_append hdash, socketPath, HookConfig.channelName,
    socketEnding]
  simp only [String.append_assoc]

theorem isRooted_sock_iff {channel : String} :
    IsRooted (channel ++ ".sock") ↔ IsRooted channel := by
  have hending : ¬ IsRooted ".sock" := by decide
  rw [isRooted_append_iff, or_iff_left fun hempty => hending hempty.2]

theorem isRooted_socketPath_iff {dir channel : String} :
    IsRooted (socketPath dir channel) ↔ IsRooted channel ∨ IsRooted dir := by
  rw [socketPath, isRooted_joinPath_iff, isRooted_sock_iff]

theorem namesOn_socketPath (dir channel : String) :
    namesOn (socketPath dir channel) =
      (if IsRooted channel then [] else namesOn dir) ++ namesOn (channel ++ ".sock") := by
  simp only [socketPath, namesOn_joinPath, isRooted_sock_iff]

theorem samePlace_socketPath_iff {dir dir' : String} {hook hook' : HookConfig}
    {pid pid' : UInt32} :
    SamePlace (socketPath dir (hook.channelName pid)) (socketPath dir' (hook'.channelName pid')) ↔
      SamePlace (joinPath dir hook.channelPrefix ++ "-")
        (joinPath dir' hook'.channelPrefix ++ "-") ∧ pid = pid' := by
  rw [socketPath_channelName, socketPath_channelName,
    samePlace_dash_iff (unbroken_socketEnding pid) (unbroken_socketEnding pid'), socketEnding_inj]

/-- **Channels and sockets are kept apart by their processes.** The name of a channel tells the
prefix and the process that it was made of. The way to its socket is that of the name with its
ending, set out on from the directory, or from the root if the name begins there. Whatever the
directory and the prefix are, two processes never have the same socket. Nor do their sockets lead to
the same place where the directories or the prefixes differ: for that, the process must be one, and
the prefixes, joined to their directories and with the dash behind them, must lead to the same
place. -/
theorem channels_apart :
    (∀ (hook hook' : HookConfig) (pid pid' : UInt32),
      hook.channelName pid = hook'.channelName pid' ↔
        hook.channelPrefix = hook'.channelPrefix ∧ pid = pid') ∧
    (∀ dir channel : String,
      (IsRooted (socketPath dir channel) ↔ IsRooted channel ∨ IsRooted dir) ∧
      namesOn (socketPath dir channel) =
        (if IsRooted channel then [] else namesOn dir) ++ namesOn (channel ++ ".sock")) ∧
    (∀ (dir : String) (hook : HookConfig),
      Function.Injective fun pid => socketPath dir (hook.channelName pid)) ∧
    ∀ (dir dir' : String) (hook hook' : HookConfig) (pid pid' : UInt32),
      SamePlace (socketPath dir (hook.channelName pid)) (socketPath dir' (hook'.channelName pid')) ↔
        SamePlace (joinPath dir hook.channelPrefix ++ "-")
          (joinPath dir' hook'.channelPrefix ++ "-") ∧ pid = pid' := by
  refine ⟨fun _ _ _ _ => channelName_eq_iff, ?_, ?_, fun _ _ _ _ _ _ => samePlace_socketPath_iff⟩
  · intro dir channel
    exact ⟨isRooted_socketPath_iff, namesOn_socketPath dir channel⟩
  · intro dir hook pid pid' heq
    exact (samePlace_socketPath_iff.mp (SamePlace.of_eq heq)).2

/-- A rooted prefix may lead to the socket of another prefix in another directory. -/
example :
    SamePlace (socketPath "/tmp" (HookConfig.channelName { channelPrefix := "/run//game/a" } 7))
      (socketPath "/run/./" (HookConfig.channelName { channelPrefix := "game/a" } 7)) := by
  decide +kernel

end Wiretap.Platform
