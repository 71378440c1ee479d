import Wiretap.Proofs.Manager.Event

/-!
# When a manager is done

A manager that nobody tells to stop takes events as long as there are some who report them.

Results:

* `isFed_of_act?`: those who have stopped to report do not start again.
* `hasCompleted_of_run?`: the manager is not done before one of its queues ends.
-/

namespace Wiretap.Manager

variable {s s' : State} {now : Nat}

def Service.hasCompleted : Service → Bool
  | .finished .complete => true
  | _ => false

/-- Somebody reports processes that have appeared, and somebody those that have gone. -/
def State.isFed (s : State) : Bool := s.events.added.feeding && s.events.removed.feeding

theorem Steps.isFed_eq {cancelled : Bool} {m : Move} (h : Steps now cancelled s m s') :
    s'.isFed = s.isFed := by
  cases h with
  | ignores _ htake | begins _ htake =>
    obtain ⟨-, hq⟩ := Queue.eq_of_take? htake
    simp only [State.isFed, congrArg Queue.feeding hq]
  | detaches _ htake hdetached =>
    obtain ⟨-, hq⟩ := Queue.eq_of_take? htake
    simp only [State.isFed, hdetached.events_eq, congrArg Queue.feeding hq]
  | builds _ _ hbuilt => simp only [State.isFed, hbuilt.events_eq]
  | _ => rfl

theorem isFed_of_act? {e : Event} (h : s.act? e = some s') (hfed : s'.isFed = true) :
    s.isFed = true := by
  cases acts_of_act? h with
  | move hstep =>
    rw [← (steps_of_step? hstep).isFed_eq]
    exact hfed
  | appears hoffer | vanishes hoffer =>
    obtain ⟨-, rfl⟩ := Queue.eq_of_offer hoffer
    exact hfed
  | endAdded => cases hfed
  | endRemoved => simp [State.isFed, Queue.finish] at hfed
  | _ => exact hfed

theorem hasCompleted_afterBuild (s : State) (job : Injection.State) :
    (s.afterBuild job).service.hasCompleted = false := by
  unfold State.afterBuild
  split
  next => split <;> rfl
  next => rfl
  next => rfl

/-- The manager is done only where one of its queues has ended. -/
theorem hasCompleted_of_act? {e : Event} (h : s.act? e = some s') (hfed : s.isFed = true)
    (hs : s.service.hasCompleted = false) : s'.service.hasCompleted = false := by
  cases acts_of_act? h with
  | @move now m _ hstep =>
    have hsteps := steps_of_step? hstep
    cases m with
    | builds m =>
      obtain ⟨_, _, -, -, rfl⟩ := eq_of_builds hstep
      exact hasCompleted_afterBuild _ _
    | takesRemoved =>
      cases hsteps with
      | detaches _ _ hdetached =>
        cases hdetached with
        | unknown => exact hs
        | waits | gone => rfl
    | completes =>
      cases hsteps with
      | completes _ hended =>
        obtain ⟨hadded, hremoved⟩ := Bool.and_eq_true_iff.mp hfed
        rcases Bool.or_eq_true_iff.mp hended with hended | hended
        · rw [(Queue.ended_iff.mp hended).2] at hadded
          cases hadded
        · rw [(Queue.ended_iff.mp hended).2] at hremoved
          cases hremoved
    | stops =>
      cases hsteps with
      | stops _ hcancelled => cases hcancelled
    | takesAdded =>
      cases hsteps with
      | ignores => exact hs
      | begins => rfl
    | announces | released | reports =>
      cases hsteps
      rfl
    | session =>
      cases hsteps
      exact hs
  | restart => rfl
  | _ => exact hs

theorem hasCompleted_of_run? {config : Config} {events : ProcessEvents} {s₀ : State}
    {t : List Event} (hnew : new? config events = some s₀) (hrun : run? State.act? s₀ t = some s)
    (hfed : s.isFed = true) : s.service.hasCompleted = false := by
  refine run?_invariant
    (motive := fun _ (s : State) => s.isFed = true → s.service.hasCompleted = false) ?_ ?_ hrun hfed
  · have hservice : s₀.service = .idle :=
      congrArg Holdings.service (initial_of_new? hnew).holdings_eq
    intro _
    rw [hservice]
    rfl
  · intro past s e s' _ hinv hact hfed'
    have hfed := isFed_of_act? hact hfed'
    exact hasCompleted_of_act? hact hfed (hinv hfed)

end Wiretap.Manager
