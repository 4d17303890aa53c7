import DualRendition.Proofs.Encoder.Step

/-!
# What a session has collected

A session holds what its accepted requests brought and nothing else: one frame for each of them, in
order, and the gain map that they all agree on. `Encoder.accepted` picks these requests out of a
run, `Collected` says that a session holds just them, and `run_collected` that it does after every
run. A gain map comes with a lone frame, so agreeing on it is no restriction.
-/

namespace DualRendition

namespace Encoder

/-- The requests of a run that are accepted, in order. -/
def accepted (e : Encoder) (rs : List Request) : List Request :=
  ((rs.zip (run e rs).1).filter fun answered => answered.2.isOk).map (·.1)

theorem accepted_cons_ok {e e' : Encoder} {r : Request} (rest : List Request)
    (h : (perform r).apply e = (.ok (), e')) :
    e.accepted (r :: rest) = r :: e'.accepted rest ∧ (run e (r :: rest)).2 = (run e' rest).2 := by
  have hrun : run e (r :: rest) = (.ok () :: (run e' rest).1, (run e' rest).2) := by
    rw [run_cons, h]
  unfold accepted
  rw [hrun]
  exact ⟨rfl, rfl⟩

theorem accepted_cons_error {e : Encoder} {r : Request} {failure : Failure} (rest : List Request)
    (h : (perform r).apply e = (.error failure, e)) :
    e.accepted (r :: rest) = e.accepted rest ∧ (run e (r :: rest)).2 = (run e rest).2 := by
  have hrun : run e (r :: rest) = (.error failure :: (run e rest).1, (run e rest).2) := by
    rw [run_cons, h]
  unfold accepted
  rw [hrun]
  exact ⟨rfl, rfl⟩

/-- The session holds what these requests brought. -/
structure Collected (e : Encoder) (taken : List Request) : Prop where
  frames : e.frames = taken.map Request.frame
  gainMap : ∀ r ∈ taken, r.gainMap = e.gainMap
  /-- No gain map without a request that brought it. -/
  noGainMap : taken = [] → e.gainMap = none
  /-- The pictures were checked. -/
  colors : ∀ r ∈ taken, ∃ first, r.color.Legal first

theorem start_collected : Collected start [] where
  frames := rfl
  gainMap := fun _ hr => nomatch hr
  noGainMap := fun _ => rfl
  colors := fun _ hr => nomatch hr

/-- All requests of a session agree on the gain map, the one that is accepted now among them. -/
theorem Collected.gainMap_append {e : Encoder} {taken : List Request} {r : Request} {s : Submission}
    (h : Collected e taken) (hs : e.Accepts s) (hgainMap : s.gainMap = r.gainMap) :
    ∀ r' ∈ taken ++ [r], r'.gainMap = (e.append s).gainMap := by
  show ∀ r' ∈ taken ++ [r], r'.gainMap = (s.gainMap <|> e.gainMap)
  rw [hgainMap]
  intro r' hr'
  by_cases htaken : taken = []
  · -- the first request decides what the gain map is
    rw [htaken, List.nil_append, List.mem_singleton] at hr'
    rw [h.noGainMap htaken, hr']
    cases r.gainMap <;> rfl
  · -- beside another frame there is no gain map at all
    have hframes : e.frames ≠ [] := by
      rw [h.frames]
      exact fun hnil => htaken (List.map_eq_nil_iff.mp hnil)
    obtain ⟨hnone, hnone', -⟩ := hs.alone hframes
    rw [hgainMap] at hnone'
    rw [hnone, hnone']
    rcases List.mem_append.mp hr' with hold | hnew
    · rw [h.gainMap r' hold, hnone]
      rfl
    · rw [List.mem_singleton.mp hnew, hnone']
      rfl

/-- Accepting one more request. -/
theorem Collected.append {e : Encoder} {taken : List Request} {r : Request} {s : Submission}
    (h : Collected e taken) (hsubmission : r.submission = .ok s) (hs : e.Accepts s) :
    Collected (e.append s) (taken ++ [r]) := by
  obtain rfl := submission_eq hsubmission
  refine ⟨?_, h.gainMap_append hs rfl, ?_, ?_⟩
  · rw [List.map_append, ← h.frames]
    rfl
  · intro hnil
    cases List.append_ne_nil_of_right_ne_nil taken (List.cons_ne_nil r []) hnil
  · intro r' hr'
    rcases List.mem_append.mp hr' with hold | hnew
    · exact h.colors r' hold
    · obtain rfl := List.mem_singleton.mp hnew
      obtain ⟨l, hl, -⟩ := hs.color
      obtain ⟨stripped, hlegal, -⟩ := ImageGrid.layout_eq_ok_iff.mp hl
      obtain ⟨first, hfirst, -⟩ := ImageGrid.Legal.of_withoutGainMaps hlegal
      exact ⟨first, hfirst⟩

/-- After a run, the session holds what the accepted requests brought. -/
theorem run_collected (rs : List Request) : ∀ {e : Encoder} {taken : List Request},
    Collected e taken → Collected (run e rs).2 (taken ++ e.accepted rs) := by
  induction rs with
  | nil =>
    intro e taken h
    rw [show e.accepted [] = [] from rfl, List.append_nil]
    exact h
  | cons r rest ih =>
    intro e taken h
    rcases perform_cases e r with ⟨s, hsubmission, hs, happly⟩ | ⟨failure, happly⟩
    · obtain ⟨haccepted, hrun⟩ := accepted_cons_ok rest happly
      rw [haccepted, hrun, List.append_cons]
      exact ih (h.append hsubmission hs)
    · -- a refused request leaves no trace in the session
      obtain ⟨haccepted, hrun⟩ := accepted_cons_error rest happly
      rw [haccepted, hrun]
      exact ih h

/-- A session without frames is one in which nothing was accepted. -/
theorem frames_eq_nil_iff (rs : List Request) :
    (run start rs).2.frames = [] ↔ start.accepted rs = [] := by
  rw [(run_collected rs start_collected).frames]
  exact List.map_eq_nil_iff

end Encoder

end DualRendition
