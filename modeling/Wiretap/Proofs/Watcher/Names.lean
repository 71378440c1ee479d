import Wiretap.Proofs.Text.Lowercase
import Wiretap.Watcher

/-!
# Watched names

The configured name and the names of processes are compared in small letters, each of them as a
whole. So a name that contains the configured one is watched for, except where the end of a word
lies elsewhere in it: that changes the small form of a capital sigma.

Results:

* `isWatched_iff`: a name is watched for if the configured one occurs in it, both in small letters.
* `contained_names_watched`: which of the names that contain the configured one are watched for, and
  that the case of the letters of the basic alphabet is of no account.
* `not_isWatched_of_contained`: not all of them are.
-/

namespace Wiretap.Watcher

open Text (EndsWord Settled SameLetters)

theorem isWatched_iff {configured name : String} : isWatched configured name = true ↔
    Text.lower configured.toList <:+: Text.lower name.toList :=
  Text.occursIn_iff

/-- **Names that contain the configured one.** Such a name is watched for where the same capital
sigmas of the configured name end words in it as in the configured name by itself. All names that
contain the configured one are watched for exactly if each of its sigmas is settled: one character
of it on the side that counts tells whether the sigma ends a word. And letters of the basic
alphabet may be capital or small, in either name. -/
theorem contained_names_watched (configured : String) :
    (∀ (name : String) (before after : List Char),
      name.toList = before ++ (configured.toList ++ after) →
      (∀ x y, configured.toList = x ++ 'Σ' :: y →
        (EndsWord (before ++ x) (y ++ after) ↔ EndsWord x y)) →
      isWatched configured name = true) ∧
    ((∀ name : String, configured.toList <:+: name.toList → isWatched configured name = true) ↔
      Settled configured.toList) ∧
    ∀ configured' name name' : String, SameLetters configured.toList configured'.toList →
      SameLetters name.toList name'.toList →
      isWatched configured' name' = isWatched configured name := by
  refine ⟨?_, ⟨?_, ?_⟩, ?_⟩
  · intro name before after hname hends
    rw [isWatched_iff, hname]
    exact Text.isInfix_lower hends
  · intro hall
    by_contra hopen
    obtain ⟨before, after, hnot⟩ := Text.exists_of_not_settled hopen
    have hwatched := hall (String.ofList (before ++ (configured.toList ++ after)))
    rw [isWatched_iff, String.toList_ofList] at hwatched
    exact hnot (hwatched ⟨before, after, List.append_assoc ..⟩)
  · rintro hsettled name ⟨before, after, hname⟩
    rw [isWatched_iff, ← hname, List.append_assoc]
    exact Text.isInfix_lower fun x y hxy => hsettled.endsWord_iff hxy
  · intro configured' name name' hconfigured hname
    unfold isWatched
    rw [Text.lower_congr hconfigured, Text.lower_congr hname]

/-- The sigma at the end of the configured name ends a word. In the name of the process it does not,
since a full stop does not end one. -/
theorem not_isWatched_of_contained :
    let configured := "ΟΔΟΣ"
    let name := "ΟΔΟΣ.exe"
    configured.toList <:+: name.toList ∧ isWatched configured name = false := by
  decide +kernel

/-- Neither of the two sigmas ends a word, whatever stands around them. -/
theorem contained_names_watched_settled :
    let configured := "ΣΟΛΟΣ.EXE"
    let name := "(ΣΟΛΟΣ.EXE)"
    (Settled configured.toList ∧ configured.toList <:+: name.toList) ∧
      (SameLetters configured.toList "ΣΟΛΟΣ.exe".toList ∧
        SameLetters name.toList "(ΣΟΛΟΣ.Exe)".toList) ∧
      isWatched configured name = true ∧ isWatched "ΣΟΛΟΣ.exe" "(ΣΟΛΟΣ.Exe)" = true := by
  intro configured name
  have hsettled : Settled configured.toList := by decide +kernel
  have hinfix : configured.toList <:+: name.toList := by decide +kernel
  have hconfigured : SameLetters configured.toList "ΣΟΛΟΣ.exe".toList := by decide +kernel
  have hname : SameLetters name.toList "(ΣΟΛΟΣ.Exe)".toList := by decide +kernel
  obtain ⟨-, hcontained, hcase⟩ := contained_names_watched configured
  have hwatched := hcontained.mpr hsettled name hinfix
  refine ⟨⟨hsettled, hinfix⟩, ⟨hconfigured, hname⟩, hwatched, ?_⟩
  rw [hcase _ _ _ hconfigured hname, hwatched]

end Wiretap.Watcher
