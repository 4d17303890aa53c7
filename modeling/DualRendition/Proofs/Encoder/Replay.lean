import DualRendition.Proofs.Encoder.Invariant
import DualRendition.Proofs.Encoder.Trace
import DualRendition.Proofs.Payload.RoundTrip

/-!
# Refused requests leave no trace

A session is the one that its accepted requests make alone: `run_accepted` carries them out again
without the others, every one of them is accepted, and the session afterwards is the same. So are
all answers from there on, and what the session finishes with (`refusals_leave_no_trace`).

Whether it finishes depends on two things only, a frame and metadata that validates:
`exists_finish_iff`. That the gain map of a session is storable, it takes from the invariant.
-/

namespace DualRendition

namespace Encoder

variable {e : Encoder}

/-! ## Runs in two parts -/

/-- A run goes on with the session that its first part left. -/
theorem run_append (before later : List Request) : ∀ e : Encoder,
    run e (before ++ later) =
      ((run e before).1 ++ (run (run e before).2 later).1, (run (run e before).2 later).2) := by
  induction before with
  | nil => exact fun _ => rfl
  | cons r before ih =>
    intro e
    rw [List.cons_append, run_cons, run_cons, ih]
    rfl

/-- The accepted requests alone are accepted again, and lead to the same session. -/
theorem run_accepted (rs : List Request) : ∀ e : Encoder,
    run e (e.accepted rs) =
      (List.replicate (e.accepted rs).length (.ok ()), (run e rs).2) := by
  induction rs with
  | nil => exact fun _ => rfl
  | cons r rest ih =>
    intro e
    rcases perform_cases e r with ⟨s, -, -, happly⟩ | ⟨failure, happly⟩
    · obtain ⟨haccepted, hrun⟩ := accepted_cons_ok rest happly
      rw [haccepted, hrun, run_cons, happly, ih]
      rfl
    · obtain ⟨haccepted, hrun⟩ := accepted_cons_error rest happly
      rw [haccepted, hrun, ih]

/-- A request that fails changes nothing. -/
theorem perform_eq_error {e' : Encoder} {r : Request} {failure : Failure}
    (h : (perform r).apply e = (.error failure, e')) : e' = e := by
  rcases perform_cases e r with ⟨s, -, -, happly⟩ | ⟨failure', happly⟩
  · rw [happly] at h
    cases congrArg Prod.fst h
  · rw [happly] at h
    exact (congrArg Prod.snd h).symm

/-! ## Finishing -/

/-- A storable gain map becomes an item when its metadata validates. -/
theorem exists_gainMapItem_iff {g : GainMapGrid} (h : Storable g) :
    (∃ item, gainMapItem g = .ok item) ↔ ∀ cell ∈ g.cells, cell.metadata.validate = .ok () := by
  constructor
  · intro hitem cell hcell
    obtain ⟨item, hitem⟩ := hitem
    obtain ⟨first, firstImage, hlegal, hwrite, -⟩ := gainMapItem_eq_ok_iff.mp hitem
    rw [hlegal.metadata cell hcell]
    exact (Payload.write_eq_ok_iff.mp hwrite).1
  · intro hvalid
    obtain ⟨l, hl, -⟩ := h.layout
    obtain ⟨first, images, firstImage, hlegal, -⟩ := GainMapGrid.layout_eq_ok_iff.mp hl
    have hfirst : first ∈ g.cells := List.mem_of_mem_head? hlegal.head
    have hwrite : Payload.write first.metadata = .ok (Payload.encode first.metadata) :=
      Payload.write_eq_ok_iff.mpr ⟨hvalid first hfirst, rfl⟩
    exact ⟨⟨images, Payload.encode first.metadata, first.alternate⟩,
      gainMapItem_eq_ok_iff.mpr ⟨first, firstImage, hlegal, hwrite, rfl⟩⟩

/-- A session finishes when it has a frame, and metadata that validates in its gain map. -/
theorem exists_finish_iff (h : ∀ g, e.gainMap = some g → Storable g) :
    (∃ stored, e.finish = .ok stored) ↔
      e.frames ≠ [] ∧ ∀ g, e.gainMap = some g →
        ∀ cell ∈ g.cells, cell.metadata.validate = .ok () := by
  constructor
  · intro hfinish
    obtain ⟨stored, hfinish⟩ := hfinish
    obtain ⟨hframes, -, hitem⟩ := finish_eq_ok hfinish
    refine ⟨hframes, fun g hg => ?_⟩
    rw [hg] at hitem
    obtain ⟨item, hitem, -⟩ := Outcome.mapM_some_eq_ok hitem
    exact (exists_gainMapItem_iff (h g hg)).mp ⟨item, hitem⟩
  · intro hready
    obtain ⟨hframes, hvalid⟩ := hready
    cases hg : e.gainMap with
    | none =>
      have hitem : e.gainMap.mapM gainMapItem = .ok none := by
        rw [hg]
        rfl
      exact ⟨_, finish_ok hframes hitem⟩
    | some g =>
      obtain ⟨item, hitem⟩ := (exists_gainMapItem_iff (h g hg)).mpr (hvalid g hg)
      have hitem : e.gainMap.mapM gainMapItem = .ok (some item) := by
        rw [hg]
        exact Outcome.mapM_some hitem
      exact ⟨_, finish_ok hframes hitem⟩

/-- **Refused requests leave no trace.** In any session, a request that fails changes nothing. Hence
the accepted requests alone, in the same order, are all accepted again and lead to the same session;
whatever is requested after them is answered as in the session with the refused ones, and finishing
gives the same. It fails exactly when no request was accepted or when the metadata of the stored
gain map does not validate. -/
theorem refusals_leave_no_trace (before later : List Request) :
    (∀ r failure e', (perform r).apply (run start before).2 = (.error failure, e') →
      e' = (run start before).2) ∧
    run start (start.accepted before) =
      (List.replicate (start.accepted before).length (.ok ()), (run start before).2) ∧
    (∃ answers, (run start (before ++ later)).1 = (run start before).1 ++ answers ∧
      (run start (start.accepted before ++ later)).1 =
        List.replicate (start.accepted before).length (.ok ()) ++ answers) ∧
    (run start (start.accepted before ++ later)).2.finish =
      (run start (before ++ later)).2.finish ∧
    ((∃ failure, (run start before).2.finish = .error failure) ↔
      start.accepted before = [] ∨
      ∃ g, (run start before).2.gainMap = some g ∧
        ∃ cell ∈ g.cells, cell.metadata.validate ≠ .ok ()) := by
  have haccepted := run_accepted before start
  have hstorable := (run_invariant before start_invariant).storable
  refine ⟨fun _ _ _ => perform_eq_error, haccepted, ?_, ?_, ?_⟩
  · refine ⟨(run (run start before).2 later).1, ?_, ?_⟩
    · rw [run_append]
    · rw [run_append, haccepted]
  · rw [run_append, run_append, haccepted]
  · rw [Outcome.exists_error_iff, exists_finish_iff hstorable, ne_eq, frames_eq_nil_iff]
    simp only [Classical.not_and_iff_not_or_not, Classical.not_not, Classical.not_forall,
      exists_prop, ne_eq]

/-- An image without pixels, which is refused, and then one that is accepted. -/
def refusedFirst : List Request :=
  [.image { lonePixel with samples := #[] } 1 .none, .image lonePixel 1 .none]

theorem refusedFirst_no_trace :
    (perform (.image lonePixel 2 .none)).apply (run start refusedFirst).2 =
      (.error .gainMapSequence, (run start refusedFirst).2) ∧
    run start [.image lonePixel 1 .none] = ([.ok ()], (run start refusedFirst).2) ∧
    (run start [.image lonePixel 1 .none, .image lonePixel 2 .none]).2.finish =
      (run start (refusedFirst ++ [.image lonePixel 2 .none])).2.finish ∧
    (∃ stored, (run start refusedFirst).2.finish = .ok stored) ∧
    ∃ failure, (run start (refusedFirst.take 1)).2.finish = .error failure := by
  obtain ⟨hrefused, hreplayed, -, hfinish, -⟩ :=
    refusals_leave_no_trace refusedFirst [.image lonePixel 2 .none]
  obtain ⟨-, -, -, -, hfails⟩ := refusals_leave_no_trace (refusedFirst.take 1) []
  have hanswer : ((perform (.image lonePixel 2 .none)).apply (run start refusedFirst).2).1 =
      .error .gainMapSequence := rfl
  exact ⟨Prod.ext hanswer (hrefused _ _ _ (Prod.ext hanswer rfl)), hreplayed, hfinish, ⟨_, rfl⟩,
    hfails.mpr (.inl rfl)⟩

end Encoder

end DualRendition
