import DualRendition.Proofs.Decoder.Step

/-!
# The cursor of a decoding session

A session is read by steps, and taking an image or rendering one in between does not disturb them.
`cursor_law` says so of every list of requests: the steps answer and deliver as if nothing had been
taken, the cursor counts the frames handed out since the last parse, and a refused request changes
next to nothing.

What does show is an image that was taken before a step that fails: a failed step leaves the current
image as it finds it (`taken_image_missing`).

Structure: what a run keeps is shown once, for each way in which a request changes a session
(`Kept.after`). `takenSince` follows a run and says whether the current image has been taken since
the last step that succeeded. `Lacks` relates a session to the one in which nothing was taken: they
are the same but for an image that is missing exactly then. It is carried over one request by
`Lacks.step` and `Lacks.other`, and over a run by `Lacks.after`. `Counts` is the invariant of the
cursor.
-/

namespace DualRendition

namespace Decoder

/-! ## Runs -/

/-- Whether a request reads from the source. -/
def Request.isStep : Request → Bool
  | .parse | .next => true
  | .take | .toneMap .. => false

/-- The session after a list of requests. -/
def after (d : Decoder) : List Request → Decoder
  | [] => d
  | r :: rest => after (d.perform r).2 rest

/-- A property of sessions that no change to a session breaks. -/
structure Kept (P : Decoder → Prop) : Prop where
  opened : ∀ {d header}, P d → headers d.source d.options = .ok header → P (d.opened header)
  unopened : ∀ {d}, P d → P d.unopened
  produced : ∀ {d image}, P d → d.parsed = true → d.current = .ok image →
    P { d with cursor := d.cursor + 1, image := some image }
  taken : ∀ {d}, P d → P { d with image := none }

theorem Kept.produce {P : Decoder → Prop} (h : Kept P) {d : Decoder} (hd : P d)
    (hparsed : d.parsed = true) : P (Decoder.produce d).2 := by
  unfold Decoder.produce
  cases hcurrent : d.current with
  | ok image => exact h.produced hd hparsed hcurrent
  | error failure => exact hd

theorem Kept.perform {P : Decoder → Prop} (h : Kept P) {d : Decoder} (hd : P d) (r : Request) :
    P (d.perform r).2 := by
  cases r with
  | parse =>
    show P (parse.apply d).2
    rw [parse_apply_eq]
    cases hheaders : headers d.source d.options with
    | ok header => exact h.opened hd hheaders
    | error failure => exact h.unopened hd
  | next =>
    show P (next.apply d).2
    rw [next_apply_eq]
    split
    next => exact hd
    next =>
      split
      next hparsed => exact h.produce hd hparsed
      next =>
        cases hheaders : headers d.source d.options with
        | ok header => exact h.produce (h.opened hd hheaders) rfl
        | error failure => exact h.unopened hd
  | take => exact h.taken hd
  | toneMap headroom output stop => exact hd

/-- What every change keeps, a run keeps. -/
theorem Kept.after {P : Decoder → Prop} (h : Kept P) (rs : List Request) : ∀ {d : Decoder},
    P d → P (d.after rs) := by
  induction rs with
  | nil => exact fun hd => hd
  | cons r rest ih => exact fun hd => ih (h.perform hd r)

/-- What the steps of a run answer, and the sessions they leave. -/
def steps (d : Decoder) (rs : List Request) : List (Answer × Decoder) :=
  ((rs.zip (run d rs)).filter fun asked => asked.1.isStep).map (·.2)

theorem steps_cons (d : Decoder) (r : Request) (rest : List Request) :
    steps d (r :: rest) =
      if r.isStep then d.perform r :: steps (d.perform r).2 rest
      else steps (d.perform r).2 rest := by
  have hzip : (r :: rest).zip (run d (r :: rest)) =
      (r, d.perform r) :: rest.zip (run (d.perform r).2 rest) := rfl
  unfold steps
  rw [hzip, List.filter_cons]
  dsimp only
  split <;> rfl

/-! ## Nothing is disturbed by taking -/

/-- Whether the current image has been taken since the last step that succeeded, after one more
request. Where there is no image, none is taken. -/
def mark (taken : Bool) : Request → Answer → Bool
  | .take, .taken (some _) => true
  | .parse, .done (.ok _) => false
  | .next, .done (.ok _) => false
  | _, _ => taken

/-- Whether the current image has been taken since the last step that succeeded, after a list of
requests. -/
def takenSince (taken : Bool) (d : Decoder) : List Request → Bool
  | [] => taken
  | r :: rest => takenSince (mark taken r (d.perform r).1) (d.perform r).2 rest

/-- The session, without its image if that was taken. -/
def without (d : Decoder) (taken : Bool) : Decoder :=
  if taken then { d with image := none } else d

section

variable (d : Decoder) (taken : Bool)

@[simp] theorem without_source : (d.without taken).source = d.source := by
  cases taken <;> rfl

@[simp] theorem without_options : (d.without taken).options = d.options := by
  cases taken <;> rfl

@[simp] theorem without_parsed : (d.without taken).parsed = d.parsed := by
  cases taken <;> rfl

@[simp] theorem without_opened (header : Image) :
    (d.without taken).opened header = d.opened header := by
  cases taken <;> rfl

@[simp] theorem without_unopened : (d.without taken).unopened = d.unopened.without taken := by
  unfold unopened
  rw [without_source]
  cases frontHeader d.source <;> cases taken <;> rfl

end

/-- The outcomes of a step in a session whose image may have been taken, and in the same session
with its image. -/
def Agree (taken : Bool) (x x' : Outcome Unit × Decoder) : Prop :=
  (∃ e, x = (.ok (), e) ∧ x' = (.ok (), e)) ∨
    ∃ failure e, x = (.error failure, e.without taken) ∧ x' = (.error failure, e)

theorem parse_without (d : Decoder) (taken : Bool) :
    Agree taken (parse.apply (d.without taken)) (parse.apply d) := by
  rw [parse_apply_eq, parse_apply_eq, without_source, without_options]
  cases headers d.source d.options with
  | ok header => exact .inl ⟨d.opened header, congrArg _ (without_opened d taken header), rfl⟩
  | error failure =>
    exact .inr ⟨failure, d.unopened, congrArg _ (without_unopened d taken), rfl⟩

theorem produce_without (d : Decoder) (taken : Bool) :
    Agree taken (produce (d.without taken)) (produce d) := by
  have hcurrent : (d.without taken).current = d.current := by
    cases taken <;> rfl
  unfold produce
  rw [hcurrent]
  cases d.current with
  | ok image =>
    refine .inl ⟨_, ?_, rfl⟩
    cases taken <;> rfl
  | error failure => exact .inr ⟨failure, d, rfl, rfl⟩

/-- A step that has to parse first may fail behind a header that it has found. So the image must
have been taken from a session that was parsed. -/
theorem next_without {d : Decoder} {taken : Bool} (hparsed : taken = true → d.parsed = true) :
    Agree taken (next.apply (d.without taken)) (next.apply d) := by
  rw [next_apply_eq, next_apply_eq, without_source, without_options, without_parsed]
  split
  next => exact .inr ⟨_, d, rfl, rfl⟩
  next =>
    split
    next => exact produce_without d taken
    next hunparsed =>
      cases taken with
      | true => exact absurd (hparsed rfl) hunparsed
      | false =>
        cases headers d.source d.options with
        | ok header => exact produce_without (d.opened header) false
        | error failure => exact .inr ⟨failure, d.unopened, rfl, rfl⟩

/-- The session `d` is `bare`, without its image if that was taken. -/
structure Lacks (taken : Bool) (d bare : Decoder) : Prop where
  same : d = bare.without taken
  parsed : taken = true → bare.parsed = true
  /-- There is no image to take before the first parse. -/
  blank : bare.parsed = false → bare.image = none

theorem start_lacks (source : StoredImage) (options : DecoderOptions) :
    Lacks false (start source options) (start source options) :=
  ⟨rfl, fun h => (nomatch h), fun _ => rfl⟩

/-- A parsed session stays parsed. -/
theorem kept_parsed : Kept fun d => d.parsed = true where
  opened _ _ := rfl
  unopened {d} h := by
    obtain ⟨present, hsame⟩ := d.unopened_eq
    rw [hsame]
    exact h
  produced h _ _ := h
  taken h := h

theorem kept_blank : Kept fun d => d.parsed = false → d.image = none where
  opened _ _ h := nomatch h
  unopened {d} h := by
    obtain ⟨present, hsame⟩ := d.unopened_eq
    rw [hsame]
    exact h
  produced _ hparsed _ hunparsed := by cases hparsed.symm.trans hunparsed
  taken _ _ := rfl

/-- The outcomes of a step in a session from which the image may have been taken, and in the session
in which nothing was taken. They answer alike. A step that succeeds leaves the same session behind,
and one that fails the same but for the image, which is missing if it was taken. -/
structure Matches (taken : Bool) (e e' : Answer × Decoder) : Prop where
  answer : e.1 = e'.1
  success : e.1 = .done (.ok ()) → e.2 = e'.2
  failure : ∀ f, e.1 = .done (.error f) → e.2 = e'.2.without taken

variable {taken : Bool} {d bare : Decoder} {r : Request}

theorem Agree.matches {x x' : Outcome Unit × Decoder} (h : Agree taken x x') :
    Matches taken (.done x.1, x.2) (.done x'.1, x'.2) := by
  rcases h with ⟨e, rfl, rfl⟩ | ⟨failure, e, rfl, rfl⟩
  · exact ⟨rfl, fun _ => rfl, fun _ h => nomatch h⟩
  · exact ⟨rfl, fun h => (nomatch h), fun _ _ => rfl⟩

theorem Lacks.agree (h : Lacks taken d bare) (hr : r.isStep = true) :
    ∃ x x', d.perform r = (.done x.1, x.2) ∧ bare.perform r = (.done x'.1, x'.2) ∧
      Agree taken x x' := by
  obtain rfl := h.same
  cases r with
  | parse => exact ⟨_, _, rfl, rfl, parse_without bare taken⟩
  | next => exact ⟨_, _, rfl, rfl, next_without h.parsed⟩
  | take => cases hr
  | toneMap headroom output stop => cases hr

theorem Lacks.matches (h : Lacks taken d bare) (hr : r.isStep = true) :
    Matches taken (d.perform r) (bare.perform r) := by
  obtain ⟨x, x', hx, hx', hagree⟩ := h.agree hr
  rw [hx, hx']
  exact hagree.matches

theorem mark_ok (taken : Bool) (hr : r.isStep = true) : mark taken r (.done (.ok ())) = false := by
  cases r with
  | parse => rfl
  | next => rfl
  | take => cases hr
  | toneMap headroom output stop => cases hr

theorem mark_error (taken : Bool) (r : Request) (failure : Failure) :
    mark taken r (.done (.error failure)) = taken := by
  cases r <;> rfl

/-- After a step that succeeds nothing is missing, and one that fails does not bring back what is.
-/
theorem Lacks.step (h : Lacks taken d bare) (hr : r.isStep = true) :
    Lacks (mark taken r (d.perform r).1) (d.perform r).2 (bare.perform r).2 := by
  have hblank := kept_blank.perform h.blank r
  have hparsed := fun htaken => kept_parsed.perform (h.parsed htaken) r
  obtain ⟨x, x', hx, hx', hagree⟩ := h.agree hr
  rw [hx'] at hblank hparsed
  rw [hx, hx']
  rcases hagree with ⟨e, rfl, rfl⟩ | ⟨failure, e, rfl, rfl⟩
  · rw [mark_ok taken hr]
    exact ⟨rfl, fun h => (nomatch h), hblank⟩
  · rw [mark_error]
    exact ⟨rfl, hparsed, hblank⟩

/-- Other requests leave the session alone but for its image. -/
theorem Lacks.other (h : Lacks taken d bare) (hr : ¬r.isStep = true) :
    Lacks (mark taken r (d.perform r).1) (d.perform r).2 bare := by
  cases r with
  | parse => exact absurd rfl hr
  | next => exact absurd rfl hr
  | toneMap headroom output stop => exact h
  | take =>
    obtain rfl := h.same
    cases taken with
    | true => exact ⟨rfl, h.parsed, h.blank⟩
    | false =>
      obtain ⟨source, options, image, parsed, present, cursor⟩ := bare
      cases image with
      | none => exact ⟨rfl, fun h => (nomatch h), h.blank⟩
      | some image =>
        -- an unparsed session has no image that could be taken
        cases parsed with
        | true => exact ⟨rfl, fun _ => rfl, h.blank⟩
        | false => cases h.blank rfl

/-- What is missing after a list of requests is an image that was taken since the last step that
succeeded. -/
theorem Lacks.after (rs : List Request) : ∀ {taken : Bool} {d bare : Decoder},
    Lacks taken d bare →
      Lacks (takenSince taken d rs) (d.after rs) (bare.after (rs.filter Request.isStep)) := by
  induction rs with
  | nil => exact fun h => h
  | cons r rest ih =>
    intro taken d bare h
    by_cases hr : r.isStep = true
    · rw [List.filter_cons_of_pos hr]
      exact ih (h.step hr)
    · rw [List.filter_cons_of_neg hr]
      exact ih (h.other hr)

/-- The steps of a run answer as those of the run without the other requests. -/
theorem Lacks.answers (rs : List Request) : ∀ {taken : Bool} {d bare : Decoder},
    Lacks taken d bare →
      (steps d rs).map (·.1) = (run bare (rs.filter Request.isStep)).map (·.1) := by
  induction rs with
  | nil => exact fun _ => rfl
  | cons r rest ih =>
    intro taken d bare h
    rw [steps_cons]
    by_cases hr : r.isStep = true
    · rw [if_pos hr, List.filter_cons_of_pos hr]
      exact congrArg₂ List.cons (h.matches hr).answer (ih (h.step hr))
    · rw [if_neg hr, List.filter_cons_of_neg hr]
      exact ih (h.other hr)

/-! ## Counting -/

/-- The number of frames handed out since the last parse, after one more request. -/
def tally (n : Nat) : Request → Answer → Nat
  | .parse, .done (.ok _) => 0
  | .next, .done (.ok _) => n + 1
  | _, _ => n

/-- The number of frames handed out since the last parse, after a list of requests. -/
def handedOut (n : Nat) (d : Decoder) : List Request → Nat
  | [] => n
  | r :: rest => handedOut (tally n r (d.perform r).1) (d.perform r).2 rest

/-- The cursor of the session stands at `n`. -/
structure Counts (source : StoredImage) (options : DecoderOptions) (n : Nat) (d : Decoder) :
    Prop where
  source : d.source = source
  options : d.options = options
  cursor : d.cursor = n
  /-- Nothing is handed out before the first parse. -/
  unparsed : d.parsed = false → n = 0
  /-- A parsed session knows whether there is a gain map. -/
  present : d.parsed = true → d.gainMapPresent = d.source.gainMap.isSome

theorem start_counts (source : StoredImage) (options : DecoderOptions) :
    Counts source options 0 (start source options) :=
  ⟨rfl, rfl, rfl, fun _ => rfl, fun h => nomatch h⟩

variable {source : StoredImage} {options : DecoderOptions} {n : Nat} {d : Decoder}

theorem Counts.opened (h : Counts source options n d) (header : Image) :
    Counts source options 0 (d.opened header) :=
  ⟨h.source, h.options, rfl, fun _ => rfl, fun _ => rfl⟩

theorem Counts.unopened (h : Counts source options n d) : Counts source options n d.unopened := by
  unfold Decoder.unopened
  cases frontHeader d.source with
  | ok header =>
    exact ⟨h.source, h.options, h.cursor, h.unparsed, fun _ => rfl⟩
  | error failure => exact h

/-- Producing an image delivers the frame at the cursor, or leaves the session as it was. -/
theorem Counts.produce (h : Counts source options n d) (hparsed : d.parsed = true) :
    (∃ image d', Decoder.produce d = (.ok (), d') ∧ d'.image = some image ∧
      Depicts source options n image ∧ Counts source options (n + 1) d') ∨
    ∃ failure, Decoder.produce d = (.error failure, d) := by
  unfold Decoder.produce
  cases hcurrent : d.current with
  | error failure => exact .inr ⟨failure, rfl⟩
  | ok image =>
    have hdepicts := current_eq_ok_iff.mp hcurrent
    rw [h.source, h.options, h.cursor] at hdepicts
    refine .inl ⟨image, _, rfl, rfl, hdepicts, h.source, h.options, congrArg (· + 1) h.cursor, ?_,
      h.present⟩
    intro hunparsed
    cases hparsed.symm.trans hunparsed

/-- **A step** delivers the frame at the cursor and moves on. Or it is refused: then a session that
was parsed stays as it was, and any other is as before it or as after parsing. -/
theorem Counts.next (h : Counts source options n d) :
    (∃ image d', Decoder.next.apply d = (.ok (), d') ∧ d'.image = some image ∧
      Depicts source options n image ∧ Counts source options (n + 1) d') ∨
    ∃ failure d', Decoder.next.apply d = (.error failure, d') ∧ Counts source options n d' ∧
      (d' = d ∨ d.parsed = false ∧ (d' = d.unopened ∨ Decoder.parse.apply d = (.ok (), d'))) := by
  rw [next_apply_eq]
  split
  next => exact .inr ⟨_, d, rfl, h, .inl rfl⟩
  next =>
    by_cases hparsed : d.parsed = true
    · rw [if_pos hparsed]
      rcases h.produce hparsed with hok | ⟨failure, hfailure⟩
      · exact .inl hok
      · exact .inr ⟨failure, d, hfailure, h, .inl rfl⟩
    · rw [if_neg hparsed]
      have hfalse : d.parsed = false := Bool.not_eq_true _ |>.mp hparsed
      obtain rfl := h.unparsed hfalse
      rw [parse_apply_eq]
      cases headers d.source d.options with
      | error failure =>
        exact .inr ⟨failure, _, rfl, h.unopened, .inr ⟨hfalse, .inl rfl⟩⟩
      | ok header =>
        rcases (h.opened header).produce rfl with hok | ⟨failure, hfailure⟩
        · exact .inl hok
        · exact .inr ⟨failure, _, hfailure, h.opened header, .inr ⟨hfalse, .inr rfl⟩⟩

/-- A request moves the cursor as it is counted. -/
theorem perform_counts (h : Counts source options n d) (r : Request) :
    Counts source options (tally n r (d.perform r).1) (d.perform r).2 := by
  cases r with
  | parse =>
    show Counts source options (tally n .parse (.done (parse.apply d).1)) (parse.apply d).2
    rw [parse_apply_eq]
    cases headers d.source d.options with
    | ok header => exact h.opened header
    | error failure => exact h.unopened
  | next =>
    show Counts source options (tally n .next (.done (next.apply d).1)) (next.apply d).2
    rcases h.next with ⟨image, d', hnext, -, -, hcounts⟩ | ⟨failure, d', hnext, hcounts, -⟩
    · rw [hnext]
      exact hcounts
    · rw [hnext]
      exact hcounts
  | take => exact ⟨h.source, h.options, h.cursor, h.unparsed, h.present⟩
  | toneMap headroom output stop => exact h

/-- So does a list of requests. -/
theorem after_counts (rs : List Request) : ∀ {n : Nat} {d : Decoder}, Counts source options n d →
    Counts source options (handedOut n d rs) (d.after rs) := by
  induction rs with
  | nil =>
    intro n d h
    exact h
  | cons r rest ih =>
    intro n d h
    exact ih (perform_counts h r)

/-! ## The law -/

/-- **The cursor law.** Take any list of requests to a new session. Without those that are no steps,
the others answer as before. Each that succeeds leaves the same session and so the same image, and
each that fails the same but for an image that was taken since the last success, which is missing.
The next step hands out the frame whose number is that of the frames handed out since the last
parse. If it is refused, the cursor stays, a parsed session does not change, and any other is as
before up to the presence of a gain map, or as after parsing. A refused parse changes at most that
presence. -/
theorem cursor_law (source : StoredImage) (options : DecoderOptions) (rs : List Request) :
    let fresh := start source options
    let d := fresh.after rs
    (steps fresh rs).map (·.1) = (run fresh (rs.filter Request.isStep)).map (·.1) ∧
    (∀ before r rest, rs = before ++ r :: rest → r.isStep = true →
      Matches (takenSince false fresh before) ((fresh.after before).perform r)
        ((fresh.after (before.filter Request.isStep)).perform r)) ∧
    (∀ d', next.apply d = (.ok (), d') → d'.cursor = handedOut 0 fresh rs + 1 ∧
      ∃ image, d'.image = some image ∧ Depicts source options (handedOut 0 fresh rs) image) ∧
    (∀ failure d', next.apply d = (.error failure, d') →
      d'.cursor = d.cursor ∧ (d.parsed = true → d' = d) ∧
      (d.parsed = false →
        (∃ present, d' = { d with gainMapPresent := present }) ∨ parse.apply d = (.ok (), d'))) ∧
    ∀ failure d', parse.apply d = (.error failure, d') →
      ∃ present, d' = { d with gainMapPresent := present } := by
  intro fresh d
  have hcounts : Counts source options (handedOut 0 fresh rs) d :=
    after_counts rs (start_counts source options)
  have hfresh : Lacks false fresh fresh := start_lacks source options
  refine ⟨hfresh.answers rs, fun before _ _ _ hr => (hfresh.after before).matches hr, ?_, ?_, ?_⟩
  · intro d' hnext
    rcases hcounts.next with ⟨image, e, he, himage, hdepicts, hnew⟩ | ⟨failure, e, he, -⟩
    · obtain rfl : e = d' := congrArg Prod.snd (he.symm.trans hnext)
      exact ⟨hnew.cursor, image, himage, hdepicts⟩
    · cases he.symm.trans hnext
  · intro failure d' hnext
    rcases hcounts.next with ⟨image, e, he, -⟩ | ⟨failure', e, he, hsame, hcases⟩
    · cases he.symm.trans hnext
    · obtain rfl : e = d' := congrArg Prod.snd (he.symm.trans hnext)
      refine ⟨hsame.cursor.trans hcounts.cursor.symm, ?_, ?_⟩
      · intro hparsed
        rcases hcases with hsame | ⟨hunparsed, -⟩
        · exact hsame
        · cases hparsed.symm.trans hunparsed
      · intro _
        rcases hcases with rfl | ⟨-, rfl | hparse⟩
        · exact .inl ⟨d.gainMapPresent, rfl⟩
        · exact .inl d.unopened_eq
        · exact .inr hparse
  · intro failure d' hparse
    rw [parse_apply_eq] at hparse
    cases hheaders : headers d.source d.options with
    | ok header =>
      rw [hheaders] at hparse
      cases hparse
    | error failure' =>
      rw [hheaders] at hparse
      obtain rfl : d.unopened = d' := congrArg Prod.snd hparse
      exact d.unopened_eq

def grayPixel (sample : UInt16) : Raster :=
  ⟨⟨8, .gray, .bt709, .srgb, .unknown⟩, 1, 1, #[sample]⟩

/-- One gray pixel in one frame. -/
def onePixel : StoredImage := ⟨[⟨.single (.ofRaster (grayPixel 7)), 1⟩], none⟩

theorem onePixel_cursor_law :
    (∃ d' image, next.apply ((start onePixel .everything).after [.parse, .take]) = (.ok (), d') ∧
      d'.cursor = 1 ∧ d'.image = some image ∧ Depicts onePixel .everything 0 image) ∧
    ((start onePixel .everything).after [.parse, .take, .next] =
      (start onePixel .everything).after [.parse, .next]) ∧
    ((start onePixel .everything).after [.next, .take, .next] =
      { (start onePixel .everything).after [.next, .next] with image := none }) ∧
    (∃ failure d', next.apply ((start onePixel .everything).after [.next, .take]) =
      (.error failure, d') ∧ d' = (start onePixel .everything).after [.next, .take]) ∧
    ∃ failure d' present, parse.apply (start .empty .everything) = (.error failure, d') ∧
      d' = { start .empty .everything with gainMapPresent := present } := by
  refine ⟨?_, ?_, ?_, ?_, ?_⟩
  · obtain ⟨-, -, hnext, -⟩ := cursor_law onePixel .everything [.parse, .take]
    obtain ⟨hcursor, image, himage, hdepicts⟩ := hnext _ rfl
    exact ⟨_, image, rfl, hcursor, himage, hdepicts⟩
  · obtain ⟨-, hsteps, -⟩ := cursor_law onePixel .everything [.parse, .take, .next]
    exact (hsteps [.parse, .take] .next [] rfl rfl).success rfl
  · obtain ⟨-, hsteps, -⟩ := cursor_law onePixel .everything [.next, .take, .next]
    exact (hsteps [.next, .take] .next [] rfl rfl).failure _ rfl
  · obtain ⟨-, -, -, hrefused, -⟩ := cursor_law onePixel .everything [.next, .take]
    obtain ⟨-, hparsed, -⟩ := hrefused _ _ rfl
    exact ⟨_, _, rfl, hparsed rfl⟩
  · obtain ⟨-, -, -, -, hparse⟩ := cursor_law .empty .everything []
    obtain ⟨present, hsame⟩ := hparse _ _ rfl
    exact ⟨_, _, present, rfl, hsame⟩

/-- A step that fails does not bring back an image that was taken: the images after all steps are
not those of the run in which nothing is taken. -/
theorem taken_image_missing :
    ¬∀ (source : StoredImage) (options : DecoderOptions) (rs : List Request),
      (steps (start source options) rs).map (fun e => (e.1, e.2.image)) =
        (run (start source options) (rs.filter Request.isStep)).map
          fun e => (e.1, e.2.image) := by
  intro h
  have hsame := h onePixel .everything [.next, .take, .next]
  have hpresent : [true, false] = [true, true] :=
    congrArg (List.map fun e : Answer × Option Image => e.2.isSome) hsame
  exact absurd hpresent (by decide)

end Decoder

end DualRendition
