import DualRendition.Edit

/-!
# Inversion of outcomes

A computation of the library is a chain of checks and of parts that may fail. The lemmas here take
such a chain apart: `Outcome.bind_eq_ok` and `Outcome.bind_eq_error` split a sequence,
`Outcome.guard_eq_ok` splits off one check, and the two `Edit.apply` lemmas do the same for steps
that change a state. An edit that checks everything before it changes anything ends in
`Edit.commit`. Every characterisation of an operation ("succeeds exactly when …") is read off its
definition with them. The definitions are unfolded first, so that the checks stand in the goal as
conditionals.
-/

namespace DualRendition

namespace Outcome

variable {α β : Type}

/-- A sequence succeeds exactly when its first part does and the rest succeeds on the result. -/
theorem bind_eq_ok {x : Outcome α} {f : α → Outcome β} {b : β} :
    (x >>= f) = .ok b ↔ ∃ a, x = .ok a ∧ f a = .ok b := by
  cases x <;> simp [bind, Except.bind]

/-- A sequence fails exactly when its first part does, or the rest on the result. -/
theorem bind_eq_error {x : Outcome α} {f : α → Outcome β} {failure : Failure} :
    (x >>= f) = .error failure ↔ x = .error failure ∨ ∃ a, x = .ok a ∧ f a = .error failure := by
  cases x <;> simp [bind, Except.bind]

/-- A check that returns nothing, and what follows it. -/
theorem check_bind_eq_ok {x : Outcome Unit} {f : Unit → Outcome β} {b : β} :
    (x >>= f) = .ok b ↔ x = .ok () ∧ f () = .ok b := by
  cases x <;> simp [bind, Except.bind]

theorem ok_bind (a : α) (f : α → Outcome β) : ((.ok a : Outcome α) >>= f) = f a := rfl

theorem error_bind (e : Failure) (f : α → Outcome β) :
    ((.error e : Outcome α) >>= f) = .error e := rfl

theorem throw_eq (e : Failure) : (throw e : Outcome α) = .error e := rfl

theorem pure_eq (a : α) : (pure a : Outcome α) = .ok a := rfl

theorem pure_eq_ok {a b : α} : (pure a : Outcome α) = .ok b ↔ a = b :=
  ⟨fun h => Except.ok.inj h, fun h => congrArg Except.ok h⟩

/-- A check that refuses under `c` is passed exactly when `c` does not hold. -/
theorem guard_eq_ok {c : Prop} [Decidable c] {e : Failure} {x : Outcome α} {a : α} :
    (if c then .error e else x) = .ok a ↔ ¬c ∧ x = .ok a := by
  by_cases h : c <;> simp [h]

/-- What follows a check, follows both of its branches. -/
theorem ite_bind {c : Prop} [Decidable c] (x y : Outcome α) (f : α → Outcome β) :
    ((if c then x else y) >>= f) = if c then x >>= f else y >>= f := by
  split <;> rfl

theorem exists_error_iff {x : Outcome α} : (∃ e, x = .error e) ↔ ¬∃ a, x = .ok a := by
  cases x <;> simp

/-! ### Classes of failures -/

/-- All failures of the computation are of one class. -/
def FailsAs (c : Category) (x : Outcome α) : Prop :=
  ∀ failure, x = .error failure → failure.category = c

theorem FailsAs.ok {c : Category} (a : α) : FailsAs c (.ok a) := fun _ h => nomatch h

theorem FailsAs.error {c : Category} {failure : Failure} (h : failure.category = c) :
    FailsAs c (.error failure : Outcome α) := by
  intro failure' h'
  obtain rfl := Except.error.inj h'
  exact h

/-- A sequence fails where one of its parts does. -/
theorem FailsAs.bind {c : Category} {x : Outcome α} {f : α → Outcome β} (hx : FailsAs c x)
    (hf : ∀ a, FailsAs c (f a)) : FailsAs c (x >>= f) := by
  cases x with
  | ok a => exact hf a
  | error failure =>
    refine FailsAs.error (hx failure rfl)

theorem FailsAs.ite {c : Category} {p : Prop} [Decidable p] {x y : Outcome α} (hx : FailsAs c x)
    (hy : FailsAs c y) : FailsAs c (if p then x else y) := by
  split
  · exact hx
  · exact hy

/-! ### Reads -/

theorem readAt_eq_ok_iff {entries : Array α} {i : Nat} {entry : α} :
    readAt entries i = .ok entry ↔ entries[i]? = some entry := by
  unfold readAt
  cases entries[i]? <;> simp

theorem exists_readAt_iff {entries : Array α} {i : Nat} :
    (∃ entry, readAt entries i = .ok entry) ↔ i < entries.size := by
  simp only [readAt_eq_ok_iff, ← Option.isSome_iff_exists, isSome_getElem?]

/-- If the computation fails, then because it reads an entry that is not there. -/
def OnlyAborts (x : Outcome α) : Prop := ∀ failure, x = .error failure → failure = .absentEntry

theorem OnlyAborts.ok (a : α) : OnlyAborts (.ok a) := fun _ h => nomatch h

theorem OnlyAborts.absent : OnlyAborts (.error .absentEntry : Outcome α) :=
  fun _ h => (Except.error.inj h).symm

theorem onlyAborts_readAt (entries : Array α) (i : Nat) : OnlyAborts (readAt entries i) := by
  unfold readAt
  split
  · exact .ok _
  · exact .absent

theorem OnlyAborts.bind {x : Outcome α} {f : α → Outcome β} (hx : OnlyAborts x)
    (hf : ∀ a, OnlyAborts (f a)) : OnlyAborts (x >>= f) := by
  cases x with
  | ok a => exact hf a
  | error failure =>
    obtain rfl := hx failure rfl
    exact .absent

theorem OnlyAborts.eq_error_iff {x : Outcome α} (hx : OnlyAborts x) :
    x = .error .absentEntry ↔ ¬∃ a, x = .ok a := by
  cases x with
  | ok a => exact ⟨fun h => (nomatch h), fun h => absurd ⟨a, rfl⟩ h⟩
  | error failure =>
    obtain rfl := hx failure rfl
    exact ⟨fun _ h => (nomatch h.choose_spec), fun _ => rfl⟩

/-- A stop that follows upon reads shows exactly when all of them succeed. -/
theorem OnlyAborts.bind_stopped_iff {x : Outcome α} (hx : OnlyAborts x) {reason : StopReason} :
    (x >>= fun _ => .error (.stopped reason) : Outcome β) = .error (.stopped reason) ↔
      ∃ a, x = .ok a := by
  cases x with
  | ok a => exact ⟨fun _ => ⟨a, rfl⟩, fun _ => rfl⟩
  | error failure =>
    obtain rfl := hx failure rfl
    exact ⟨fun h => (nomatch h), fun h => (nomatch h.choose_spec)⟩

/-! ### Optional parts -/

/-- A computation on an optional value that is there. -/
theorem mapM_some {f : α → Outcome β} {a : α} {b : β} (h : f a = .ok b) :
    (some a).mapM f = .ok (some b) := by
  show (f a >>= fun b => pure (some b)) = _
  rw [h]
  rfl

theorem mapM_some_eq_ok {f : α → Outcome β} {a : α} {o : Option β}
    (h : (some a).mapM f = .ok o) : ∃ b, f a = .ok b ∧ o = some b := by
  obtain ⟨b, hb, ho⟩ := bind_eq_ok.mp h
  exact ⟨b, hb, (pure_eq_ok.mp ho).symm⟩

/-- A result was computed from a value that is there. -/
theorem exists_of_mapM_eq_some {f : α → Outcome β} {o : Option α} {b : β}
    (h : o.mapM f = .ok (some b)) : ∃ a, o = some a ∧ f a = .ok b := by
  cases o with
  | none => cases h
  | some a =>
    obtain ⟨b', hb, hsame⟩ := mapM_some_eq_ok h
    obtain rfl := Option.some.inj hsame
    exact ⟨a, rfl, hb⟩

end Outcome

namespace Edit

variable {σ α β : Type}

/-- Applying a sequence of steps: a failure ends it with the state it was reached in. -/
theorem apply_bind (e : Edit σ α) (f : α → Edit σ β) (s : σ) :
    (e >>= f).apply s =
      match e.apply s with
      | (.ok a, t) => (f a).apply t
      | (.error failure, t) => (.error failure, t) := by
  simp only [apply, EStateM.run, bind, EStateM.bind]
  cases e s <;> rfl

/-- A computation without a state leaves the state alone, whatever its result. -/
theorem apply_ofOutcome (o : Outcome α) (s : σ) : (Edit.ofOutcome o).apply s = (o, s) := by
  cases o <;> rfl

theorem apply_get (s : σ) : (get : Edit σ σ).apply s = (.ok s, s) := rfl

/-- An edit that succeeds has an answer and a value afterwards. -/
theorem exists_apply_of_isOk {e : Edit σ α} {s : σ} (h : (e.apply s).1.isOk = true) :
    ∃ a t, e.apply s = (.ok a, t) := by
  cases hresult : e.apply s with
  | mk answer t =>
    rw [hresult] at h
    cases answer with
    | error failure => cases h
    | ok a => exact ⟨a, t, rfl⟩

/-- The end of an edit that computes first: a result is stored, and a failure leaves the value as it
was. -/
def commit (x : Outcome α) (answer : α → β) (after : α → σ) (s : σ) : Outcome β × σ :=
  match x with
  | .ok a => (.ok (answer a), after a)
  | .error failure => (.error failure, s)

section Commit

variable {x : Outcome α} {answer : α → β} {after : α → σ} {s t : σ} {b : β} {failure : Failure}

theorem commit_eq_ok_iff :
    commit x answer after s = (.ok b, t) ↔ ∃ a, x = .ok a ∧ answer a = b ∧ after a = t := by
  cases x <;> simp [commit]

/-- A failed edit changes nothing. -/
theorem commit_eq_error_iff :
    commit x answer after s = (.error failure, t) ↔ x = .error failure ∧ t = s := by
  cases x <;> simp [commit, @eq_comm _ t]

theorem commit_fst_eq_error_iff :
    (commit x answer after s).1 = .error failure ↔ x = .error failure := by
  cases x <;> simp [commit]

end Commit

theorem apply_modify (f : σ → σ) (s : σ) : (modify f : Edit σ PUnit).apply s = (.ok ⟨⟩, f s) := rfl

end Edit

end DualRendition
