import Wiretap.Proofs.Adapter.Known
import Wiretap.Proofs.Adapter.Taken

/-!
# What the watcher knows and what the manager has

Once the manager has nothing left to do, its table should have the sessions of the known processes
that it could bring one up for. The two queues of reports keep no order between them, so a process
that goes and comes back may have its session taken away after its return was ignored. The table is
right exactly about the processes of which the last report was also the last to be taken.

Results:

* `agrees_iff`: when the table is right about a process.
* `not_agrees_of_overtaking`: a process that came back and has no session.
-/

namespace Wiretap.Adapter

/-- Nothing is on its way from the watcher to the manager, and the adapter was not told to stop. -/
structure Quiet (s : State) : Prop where
  calm : s.cancelled = false
  added : s.manager.events.added.items = []
  removed : s.manager.events.removed.items = []
  poll : s.watcher.poll = .idle
  service : s.manager.service = .idle

variable {s₀ s : State} {t : List Event} {ns : List Note}

theorem mem_ids_iff (m : Manager.State) (pid : UInt32) :
    pid ∈ m.ids ↔ pid ∈ m.table.map (·.1) := by
  rw [Manager.State.ids, List.mem_mergeSort]

namespace Quiet

theorem isLive (h : Quiet s) : s.isLive = true := by
  simp [State.isLive, Manager.State.isRunning, h.service]

/-- Every report has been taken. -/
theorem taken_eq_reported (h : Quiet s) (hhandled : Handled ns s) (c : Change) :
    taken c ns = reported c ns := by
  have hwaiting : waiting c s.manager.events = [] := by
    cases c
    · exact h.added
    · exact h.removed
  have hqueued := hhandled.queued c
  rw [hwaiting, List.append_nil] at hqueued
  exact hqueued

/-- The table has the sessions of the processes that were last taken to have appeared. -/
theorem mem_ids_iff (h : Quiet s) (hhandled : Handled ns s) (pid : UInt32) :
    pid ∈ s.manager.ids ↔ lastTaken pid ns = some .appeared ∧ hasFailed pid ns = false := by
  rw [Adapter.mem_ids_iff, hhandled.keeps.mem_iff pid, h.service]
  simp

end Quiet

/-- Of two changes that are there or not together, one decides the other. -/
theorem change_eq_iff {c c' : Option Change} (hnone : c = none ↔ c' = none) :
    (c = some .appeared ↔ c' = some .appeared) ↔ c = c' := by
  rcases c with _ | _ | _ <;> rcases c' with _ | _ | _ <;> simp_all

/-- **When the manager agrees with the watcher.** Once an adapter that was not told to stop has come
to rest, every report has been taken. The table is then right about a process exactly if the last
report of it was also the last to be taken, or if the last attempt to bring up its
session failed. -/
theorem agrees_iff {config : Config} (hstart : start? config = some s₀)
    (hrun : run? State.act? s₀ t = some s) (hquiet : Quiet s) :
    (∀ c, taken c (notes s₀ t) = reported c (notes s₀ t)) ∧
      ∀ pid, ((pid ∈ s.manager.ids ↔
          pid ∈ s.watcher.known ∧ hasFailed pid (notes s₀ t) = false) ↔
        lastTaken pid (notes s₀ t) = lastReported pid (notes s₀ t) ∨
          hasFailed pid (notes s₀ t) = true) := by
  have hhandled := handled_of_run? hstart hrun hquiet.calm hquiet.isLive
  have htaken := hquiet.taken_eq_reported hhandled
  refine ⟨htaken, ?_⟩
  intro pid
  have hnone : lastTaken pid (notes s₀ t) = none ↔ lastReported pid (notes s₀ t) = none := by
    rw [lastTaken, lastReported, latest_changeOf_eq_none_iff, latest_changeOf_eq_none_iff]
    exact forall_congr' fun c => not_congr (by rw [← taken, htaken, reported])
  rw [hquiet.mem_ids_iff hhandled, known_iff hstart hrun hquiet.calm hquiet.poll,
    ← change_eq_iff hnone]
  cases hasFailed pid (notes s₀ t) <;> simp

/-- The session of a process that has appeared is in the table. -/
theorem agrees_iff_appearance : ∃ s₀ s, start? { hook := { processName := "" } } = some s₀ ∧
    run? State.act? s₀ appearance = some s ∧ Quiet s ∧ 7 ∈ s.watcher.known ∧ 7 ∈ s.manager.ids := by
  obtain ⟨s₀, s, hstart, hrun, hquiet, hknown, hlast, hfailed⟩ : ∃ s₀ s,
      start? { hook := { processName := "" } } = some s₀ ∧
      run? State.act? s₀ appearance = some s ∧ Quiet s ∧ s.watcher.known = [7] ∧
      lastTaken 7 (notes s₀ appearance) = lastReported 7 (notes s₀ appearance) ∧
      hasFailed 7 (notes s₀ appearance) = false :=
    ⟨_, _, rfl, rfl, ⟨rfl, rfl, rfl, rfl, rfl⟩, rfl, rfl, rfl⟩
  have hmem : 7 ∈ s.watcher.known := by
    rw [hknown]
    exact List.mem_singleton.mpr rfl
  obtain ⟨-, hagrees⟩ := agrees_iff hstart hrun hquiet
  exact ⟨s₀, s, hstart, hrun, hquiet, hmem, ((hagrees 7).mpr (.inl hlast)).mpr ⟨hmem, hfailed⟩⟩

/-- It goes away and comes back. The manager takes the report of its return first. -/
def absence : List Event :=
  [.move 1000 (.watcher .ticks), .move 1000 (.watcher (.scanned (some []))),
    .move 1000 (.watcher .reports), .move 1000 (.watcher .reports), .move 2000 (.watcher .ticks),
    .move 2000 (.watcher (.scanned (some [⟨7, ""⟩]))), .move 2000 (.watcher .reports),
    .move 2000 (.watcher .reports), .move 2000 (.manager .takesAdded),
    .move 2000 (.manager .takesRemoved)]

/-- The session that was made for it is over, and the manager is done with it. -/
def removal : List Event :=
  [.move 2000 (.manager (.session 0 (.stage (.wroteFarewell (.ok 0))))),
    .move 2000 (.manager (.session 0 (.stage (.hungUp (.ok ()))))), .move 2000 (.manager .released),
    .move 2000 (.manager .reports)]

/-- A process came back and has no session, although nothing failed: its return was ignored while
the report that it had gone was still waiting. -/
theorem not_agrees_of_overtaking : ∃ s₀ s, start? { hook := { processName := "" } } = some s₀ ∧
    run? State.act? s₀ (appearance ++ absence ++ teardown ++ removal) = some s ∧ Quiet s ∧
    7 ∈ s.watcher.known ∧
    hasFailed 7 (notes s₀ (appearance ++ absence ++ teardown ++ removal)) = false ∧
    7 ∉ s.manager.ids := by
  obtain ⟨s₀, s, hstart, hrun, hquiet, hknown, hfailed, htable⟩ : ∃ s₀ s,
      start? { hook := { processName := "" } } = some s₀ ∧
      run? State.act? s₀ (appearance ++ absence ++ teardown ++ removal) = some s ∧ Quiet s ∧
      s.watcher.known = [7] ∧
      hasFailed 7 (notes s₀ (appearance ++ absence ++ teardown ++ removal)) = false ∧
      s.manager.table = [] :=
    ⟨_, _, rfl, rfl, ⟨rfl, rfl, rfl, rfl, rfl⟩, rfl, rfl, rfl⟩
  refine ⟨s₀, s, hstart, hrun, hquiet, ?_, hfailed, ?_⟩
  · rw [hknown]
    exact List.mem_singleton.mpr rfl
  · rw [mem_ids_iff, htable]
    exact List.not_mem_nil

end Wiretap.Adapter
