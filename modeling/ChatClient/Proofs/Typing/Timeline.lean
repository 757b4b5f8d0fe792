import ChatClient.Typing.Debouncer
import Mathlib.Data.List.Induction
import Mathlib.Tactic.Common

/-!
# When typing is announced

Keys are hit, messages are sent, and now and then someone looks whether the time is up. All that the
debouncer says about it can be told from what was done and when. While a deadline is set, typing has
been announced and not yet ended; the deadline belongs to the last keystroke, and it is dropped by
whatever ends the typing first, so that no second end can follow.

If someone looks at every deadline right when it comes, the times fall into bursts. A keystroke
belongs to the burst of the one before it if that was hit less than the idle time ago and nothing
has been sent in between. Every burst is announced with its first keystroke, and its end is
announced once: with the next message, or when nothing has come for the idle time.

## Main definitions

* `Debouncer.Beat`, `Debouncer.after`: what is done, and what becomes of the debouncer
* `Debouncer.Note`, `Debouncer.notes`: what was done and what was announced then
* `Debouncer.lastKeystroke?`: the last keystroke and all that has happened since
* `Debouncer.Punctual`: someone looks at every deadline in time
* `Debouncer.ending`: when a burst ends

## Main results

* `tells_concat`: what is said about a debouncer stays true with one more beat
* `silent_iff_begins`: which keystrokes begin a burst
* `ends_of_typing`: a burst that has begun ends once, and in time
* `notes_told`: all of this for any row of beats
-/

namespace ChatClient

namespace Debouncer

/-! ## Rows of beats -/

/-- What can be done to a debouncer. -/
inductive Stimulus
  | keystroke | poll | send
  deriving DecidableEq

/-- Something is done at a time. -/
structure Beat where
  what : Stimulus
  time : Nat
  deriving DecidableEq

/-- What was done, and what was announced then. -/
structure Note where
  beat : Beat
  said : Option TypingSignal
  deriving DecidableEq

/-- The debouncer after a beat, and what it announces. -/
def meet (d : Debouncer) (b : Beat) : Debouncer × Option TypingSignal :=
  match b.what with
  | .keystroke => d.keystroke b.time
  | .poll => d.poll b.time
  | .send => d.send

/-- The debouncer after a row of beats. -/
def after (d : Debouncer) (bs : List Beat) : Debouncer :=
  bs.foldl (fun d b => (d.meet b).1) d

/-- What is done in a row of beats, and what is announced. -/
def notes (d : Debouncer) : List Beat → List Note
  | [] => []
  | b :: bs => ⟨b, (d.meet b).2⟩ :: (d.meet b).1.notes bs

/-- The signals that were announced, in their order. -/
def signals (ns : List Note) : List TypingSignal := ns.filterMap Note.said

/-- The time of the last keystroke, and what has been noted since. -/
def lastKeystroke? : List Note → Option (Nat × List Note)
  | [] => none
  | n :: later =>
    (lastKeystroke? later).or
      (if n.beat.what = .keystroke then some (n.beat.time, later) else none)

variable {d d' : Debouncer} {b : Beat} {n : Note} {ns : List Note} {said : Option TypingSignal}
  {idle : Nat}

private theorem after_concat (bs : List Beat) (b : Beat) :
    d.after (bs ++ [b]) = ((d.after bs).meet b).1 := by
  rw [after, List.foldl_append]
  rfl

private theorem notes_append (bs more : List Beat) :
    d.notes (bs ++ more) = d.notes bs ++ (d.after bs).notes more := by
  induction bs generalizing d with
  | nil => rfl
  | cons b bs ih => exact congrArg _ ih

private theorem notes_concat (bs : List Beat) (b : Beat) :
    d.notes (bs ++ [b]) = d.notes bs ++ [⟨b, ((d.after bs).meet b).2⟩] :=
  notes_append bs [b]

private theorem map_beat_notes (bs : List Beat) : (d.notes bs).map Note.beat = bs := by
  induction bs generalizing d with
  | nil => rfl
  | cons b bs ih => exact congrArg _ ih

private theorem exists_mem_notes {bs : List Beat} {p : Beat → Prop} :
    (∃ n ∈ d.notes bs, p n.beat) ↔ ∃ b ∈ bs, p b := by
  conv_rhs => rw [← map_beat_notes (d := d) bs]
  simp

/-- Where a note was taken, its beat stands among the beats. -/
theorem exists_of_notes_eq {bs : List Beat} {before later : List Note}
    (h : d.notes bs = before ++ n :: later) :
    ∃ bs₁ bs₂, bs = bs₁ ++ n.beat :: bs₂ ∧ d.notes bs₁ = before ∧
      ((d.after bs₁).meet n.beat).2 = n.said ∧
      ((d.after bs₁).meet n.beat).1.notes bs₂ = later := by
  induction before generalizing d bs with
  | nil =>
    cases bs with
    | nil => cases h
    | cons b bs =>
      rw [notes, List.nil_append, List.cons.injEq] at h
      obtain ⟨rfl, rfl⟩ := h
      exact ⟨[], bs, rfl, rfl, rfl, rfl⟩
  | cons m before ih =>
    cases bs with
    | nil => cases h
    | cons b bs =>
      rw [notes, List.cons_append, List.cons.injEq] at h
      obtain ⟨rfl, h⟩ := h
      obtain ⟨bs₁, bs₂, rfl, rfl, said, rest⟩ := ih h
      exact ⟨b :: bs₁, bs₂, rfl, rfl, said, rest⟩

private theorem lastKeystroke?_concat (ns : List Note) (n : Note) :
    lastKeystroke? (ns ++ [n]) =
      if n.beat.what = .keystroke then some (n.beat.time, [])
      else (lastKeystroke? ns).map fun last => (last.1, last.2 ++ [n]) := by
  induction ns with
  | nil => by_cases hit : n.beat.what = .keystroke <;> simp [lastKeystroke?, hit]
  | cons m ns ih =>
    rw [List.cons_append, lastKeystroke?, ih, lastKeystroke?]
    by_cases hit : n.beat.what = .keystroke
    · simp [hit]
    · cases lastKeystroke? ns <;> by_cases own : m.beat.what = .keystroke <;> simp [hit, own]

/-- Anything but a keystroke comes after the one that was the last. -/
theorem lastKeystroke?_concat_eq_some_iff (other : n.beat.what ≠ .keystroke) {k : Nat}
    {since : List Note} :
    lastKeystroke? (ns ++ [n]) = some (k, since) ↔
      ∃ before, lastKeystroke? ns = some (k, before) ∧ before ++ [n] = since := by
  rw [lastKeystroke?_concat, if_neg other, Option.map_eq_some_iff]
  simp

/-! ## One beat -/

/-- What a beat does to a debouncer, and what is announced then. -/
inductive Meets (d : Debouncer) (b : Beat) : Debouncer → Option TypingSignal → Prop
  | begins (hit : b.what = .keystroke) (silent : d.announced = false) :
      Meets d b { d with announced := true, deadline := some (b.time + d.idle) } (some .start)
  | goesOn (hit : b.what = .keystroke) (announced : d.announced = true) :
      Meets d b { d with announced := true, deadline := some (b.time + d.idle) } none
  | ends (announced : d.announced = true)
      (reason : b.what = .send ∨ b.what = .poll ∧ ∃ due ∈ d.deadline, due ≤ b.time) :
      Meets d b { d with announced := false, deadline := none } (some .stop)
  /-- Nothing is sent that would end the typing, and no deadline has come. -/
  | passes (other : b.what ≠ .keystroke) (send : b.what = .send → d.deadline = none)
      (poll : b.what = .poll → ∀ due ∈ d.deadline, b.time < due) : Meets d b d none

/-- It is enough that a deadline is set as long as typing is announced. -/
theorem meets_meet (armed : d.announced = d.deadline.isSome) (b : Beat) :
    Meets d b (d.meet b).1 (d.meet b).2 := by
  obtain ⟨what, time⟩ := b
  cases what with
  | keystroke =>
    rw [meet, keystroke]
    cases announced : d.announced with
    | false => exact .begins rfl announced
    | true => exact .goesOn rfl announced
  | poll =>
    rw [meet, poll]
    cases deadline : d.deadline with
    | none =>
      have early : d.isDue time = false := by rw [isDue, deadline]
      simp only [early, Bool.false_eq_true, if_false]
      exact .passes (by simp) (by simp) (by simp [deadline])
    | some due =>
      have isDue : d.isDue time = decide (due ≤ time) := by rw [isDue, deadline]
      -- Typing ends by itself at the first poll that comes no earlier than the deadline.
      by_cases come : due ≤ time
      · simp only [isDue, come, decide_true, if_true]
        refine .ends (by rw [armed, deadline]; rfl) (.inr ⟨rfl, due, by simp [deadline], come⟩)
      · simp only [isDue, come, decide_false, Bool.false_eq_true, if_false]
        refine .passes (by simp) (by simp) fun _ due' mem => ?_
        obtain rfl : due = due' := by simpa [deadline] using mem
        exact Nat.lt_of_not_le come
  | send =>
    rw [meet, send]
    cases announced : d.announced with
    | true => exact .ends announced (.inl rfl)
    | false =>
      have unset : d.deadline = none := by simpa [announced] using armed
      have same : ({ d with announced := false, deadline := none } : Debouncer) = d := by
        rw [← announced, ← unset]
      simp only [Bool.false_eq_true, if_false, same]
      exact .passes (by simp) (fun _ => unset) (by simp)

/-! ## What a debouncer tells -/

/-- Signals that begin with a start and alternate, with whether typing is announced after them. -/
inductive Alternates : List TypingSignal → Bool → Prop
  | nil : Alternates [] false
  | start {ss : List TypingSignal} (rest : Alternates ss false) : Alternates (ss ++ [.start]) true
  | stop {ss : List TypingSignal} (open_ : Alternates ss true) : Alternates (ss ++ [.stop]) false

namespace Alternates

variable {ss : List TypingSignal} {on : Bool} (h : Alternates ss on)
include h

private theorem getLast?_iff : on = true ↔ ss.getLast? = some .start := by
  cases h <;> simp

private theorem length_mod : ss.length % 2 = if on then 1 else 0 := by
  induction h with
  | nil => rfl
  | start _ ih => simp [Nat.add_mod, ih]
  | stop _ ih => simp [Nat.add_mod, ih]

private theorem eq_of_getElem? {k : Nat} {s : TypingSignal} (said : ss[k]? = some s) :
    s = if k % 2 = 0 then .start else .stop := by
  induction h with
  | nil => simp at said
  | start rest ih | stop rest ih =>
    have length := rest.length_mod
    rw [List.getElem?_append] at said
    split at said
    · exact ih said
    · rw [List.getElem?_singleton] at said
      split at said <;> simp_all
      omega

end Alternates

/-- What the notes tell of the debouncer that they were taken of. -/
structure Tells (idle : Nat) (ns : List Note) (d : Debouncer) : Prop where
  idle_eq : d.idle = idle
  armed : d.announced = d.deadline.isSome
  alternates : Alternates (signals ns) d.announced
  /-- The deadline is that of the last keystroke, unless a message or a stop has come since. -/
  deadline : ∀ due, due ∈ d.deadline ↔ ∃ k since, lastKeystroke? ns = some (k, since) ∧
    due = k + idle ∧ ∀ n ∈ since, n.beat.what ≠ .send ∧ n.said ≠ some .stop
  /-- A stop that came without a message came when the idle time was over. -/
  stops : ∀ k since, lastKeystroke? ns = some (k, since) → ∀ n ∈ since, n.said = some .stop →
    n.beat.what = .send ∨ k + idle ≤ n.beat.time

private theorem tells_start (idle : Nat) : Tells idle [] { idle } where
  idle_eq := rfl
  armed := rfl
  alternates := .nil
  deadline := by simp [lastKeystroke?]
  stops := by simp [lastKeystroke?]

private theorem signals_concat (ns : List Note) (n : Note) :
    signals (ns ++ [n]) = signals ns ++ n.said.toList := by
  cases said : n.said <;> simp [signals, said]

/-- A keystroke sets the deadline anew. -/
theorem Tells.hit (h : Tells idle ns d) (hit : b.what = .keystroke) {said : Option TypingSignal}
    (alternates : Alternates (signals ns ++ said.toList) true) :
    Tells idle (ns ++ [⟨b, said⟩])
      { d with announced := true, deadline := some (b.time + d.idle) } where
  idle_eq := h.idle_eq
  armed := rfl
  alternates := by rwa [signals_concat]
  deadline due := by
    rw [lastKeystroke?_concat, if_pos hit]
    simp [h.idle_eq, eq_comm]
  stops := by
    rw [lastKeystroke?_concat, if_pos hit]
    rintro k since ⟨⟩
    simp

/-- What is not a keystroke may be a stop, if it is a message or comes late enough. -/
theorem Tells.stops_concat (h : Tells idle ns d) (other : n.beat.what ≠ .keystroke)
    (late : n.said = some .stop → n.beat.what = .send ∨
      ∀ k since, lastKeystroke? ns = some (k, since) → k + idle ≤ n.beat.time)
    (k : Nat) (since : List Note) (now : lastKeystroke? (ns ++ [n]) = some (k, since)) :
    ∀ m ∈ since, m.said = some .stop → m.beat.what = .send ∨ k + idle ≤ m.beat.time := by
  obtain ⟨before, last, rfl⟩ := (lastKeystroke?_concat_eq_some_iff other).mp now
  intro m mem stop
  rcases List.mem_append.mp mem with mem | mem
  · exact h.stops k before last m mem stop
  · obtain rfl := List.mem_singleton.mp mem
    exact (late stop).imp_right fun late => late k before last

/-- What the notes tell of a debouncer they still tell after one more beat. -/
theorem tells_concat (h : Tells idle ns d) (meets : Meets d b d' said) :
    Tells idle (ns ++ [⟨b, said⟩]) d' := by
  cases meets with
  | begins hit silent => exact h.hit hit (.start (silent ▸ h.alternates))
  | goesOn hit announced =>
    refine h.hit hit ?_
    rw [Option.toList_none, List.append_nil, ← announced]
    exact h.alternates
  | ends announced reason =>
    have other : b.what ≠ .keystroke := by
      rintro hit
      simp [hit] at reason
    exact {
      idle_eq := h.idle_eq
      armed := rfl
      alternates := by
        rw [signals_concat]
        exact .stop (announced ▸ h.alternates)
      deadline := by
        intro due
        simp only [lastKeystroke?_concat_eq_some_iff (n := ⟨b, some .stop⟩) other]
        refine iff_of_false (by simp) ?_
        rintro ⟨k, _, ⟨before, -, rfl⟩, -, quiet⟩
        exact (quiet ⟨b, some .stop⟩ (by simp)).2 rfl
      stops := by
        refine h.stops_concat other fun _ => reason.imp_right ?_
        rintro ⟨-, due, mem, come⟩ k since last
        obtain ⟨k', since', last', rfl, -⟩ := (h.deadline due).mp mem
        obtain ⟨rfl, -⟩ := Prod.mk.inj (Option.some.inj (last'.symm.trans last))
        exact come }
  | passes other send poll =>
    exact {
      idle_eq := h.idle_eq
      armed := h.armed
      alternates := by
        rw [signals_concat]
        simpa using h.alternates
      deadline := by
        intro due
        simp only [h.deadline due, lastKeystroke?_concat_eq_some_iff (n := ⟨b, none⟩) other]
        constructor
        · rintro ⟨k, since, last, rfl, quiet⟩
          refine ⟨k, _, ⟨since, last, rfl⟩, rfl, fun n mem => ?_⟩
          rcases List.mem_append.mp mem with mem | mem
          · exact quiet n mem
          · obtain rfl := List.mem_singleton.mp mem
            -- While the deadline is set a message would have ended the typing.
            have set := (h.deadline (k + idle)).mpr ⟨k, since, last, rfl, quiet⟩
            refine ⟨fun sent => ?_, by simp⟩
            rw [send sent] at set
            cases set
        · rintro ⟨k, _, ⟨before, last, rfl⟩, rfl, quiet⟩
          exact ⟨k, before, last, rfl, fun n mem => quiet n (List.mem_append_left _ mem)⟩
      stops := h.stops_concat other (by simp) }

/-- The notes of any row of beats tell of the debouncer. -/
theorem tells_notes (idle : Nat) (bs : List Beat) :
    Tells idle (notes { idle } bs) (after { idle } bs) := by
  induction bs using List.reverseRecOn with
  | nil => exact tells_start idle
  | append_singleton bs b ih =>
    rw [notes_concat, after_concat]
    exact tells_concat ih (meets_meet ih.armed b)

/-! ## Bursts -/

/-- Someone looks at every deadline right when it comes, before anything else happens then or
later. -/
def Punctual (d : Debouncer) : List Beat → Prop
  | [] => True
  | b :: bs => (∀ due ∈ d.deadline, due ≤ b.time → b = ⟨.poll, due⟩) ∧ (d.meet b).1.Punctual bs

instance decidablePunctual : ∀ (d : Debouncer) (bs : List Beat), Decidable (d.Punctual bs)
  | _, [] => .isTrue trivial
  | d, b :: bs =>
    have := decidablePunctual (d.meet b).1 bs
    inferInstanceAs (Decidable ((∀ due ∈ d.deadline, due ≤ b.time → b = ⟨.poll, due⟩) ∧ _))

/-- No beat comes before the one in front of it. -/
def Ordered (bs : List Beat) : Prop := bs.Pairwise fun b b' => b.time ≤ b'.time

/-- When the next message is sent. -/
def nextSend? (later : List Beat) : Option Nat :=
  (later.find? fun b => b.what = .send).map Beat.time

/-- The last keystroke of a burst that has come to the keystroke at the time `last`. The next one
belongs to it if it comes less than the idle time later and before the next message. -/
def lastOfBurst (idle last : Nat) : List Beat → Nat
  | [] => last
  | b :: later =>
    match b.what with
    | .keystroke => if b.time < last + idle then lastOfBurst idle b.time later else last
    | .poll => lastOfBurst idle last later
    | .send => last

/-- When such a burst ends: with the next message, but not later than the idle time after its last
keystroke. -/
def ending (idle last : Nat) (later : List Beat) : Nat :=
  match nextSend? later with
  | some time => min time (lastOfBurst idle last later + idle)
  | none => lastOfBurst idle last later + idle

section Ending

variable {last : Nat} {bs : List Beat}

private theorem ending_keystroke (hit : b.what = .keystroke) (soon : b.time < last + idle) :
    ending idle last (b :: bs) = ending idle b.time bs := by
  simp [ending, nextSend?, lastOfBurst, hit, soon]

private theorem ending_poll (poll : b.what = .poll) :
    ending idle last (b :: bs) = ending idle last bs := by
  simp [ending, nextSend?, lastOfBurst, poll]

private theorem ending_send (send : b.what = .send) (soon : b.time ≤ last + idle) :
    ending idle last (b :: bs) = b.time := by
  simp [ending, nextSend?, lastOfBurst, send, soon]

private theorem le_lastOfBurst (ordered : Ordered bs) (after : ∀ b ∈ bs, last ≤ b.time) :
    last ≤ lastOfBurst idle last bs := by
  induction bs generalizing last with
  | nil => exact Nat.le_refl last
  | cons b bs ih =>
    obtain ⟨first, ordered⟩ := List.pairwise_cons.mp ordered
    obtain ⟨here, after⟩ := List.forall_mem_cons.mp after
    rw [lastOfBurst]
    split
    · split
      · exact Nat.le_trans here (ih ordered first)
      · exact Nat.le_refl last
    · exact ih ordered after
    · exact Nat.le_refl last

/-- Nothing that comes when the idle time is over belongs to the burst. -/
theorem lastOfBurst_of_late (late : ∀ b ∈ bs, last + idle ≤ b.time) :
    lastOfBurst idle last bs = last := by
  induction bs with
  | nil => rfl
  | cons b bs ih =>
    obtain ⟨here, late⟩ := List.forall_mem_cons.mp late
    rw [lastOfBurst]
    split
    · exact if_neg (Nat.not_lt.mpr here)
    · exact ih late
    · rfl

private theorem exists_of_nextSend? {time : Nat} (next : nextSend? bs = some time) :
    ∃ b ∈ bs, b.time = time := by
  obtain ⟨b, found, rfl⟩ := Option.map_eq_some_iff.mp next
  exact ⟨b, List.mem_of_find?_eq_some found, rfl⟩

private theorem ending_of_late (late : ∀ b ∈ bs, last + idle ≤ b.time) :
    ending idle last bs = last + idle := by
  rw [ending, lastOfBurst_of_late late]
  split
  · next time next =>
    obtain ⟨b, mem, rfl⟩ := exists_of_nextSend? next
    exact Nat.min_eq_right (late b mem)
  · rfl

/-- If a burst ends before the idle time is over, it ends with a message. -/
theorem exists_of_ending_lt (ordered : Ordered bs) (after : ∀ b ∈ bs, last ≤ b.time)
    (soon : ending idle last bs < last + idle) : ∃ b ∈ bs, ending idle last bs ≤ b.time := by
  have far : last ≤ lastOfBurst idle last bs := le_lastOfBurst ordered after
  rw [ending] at soon ⊢
  split
  · next time next =>
    obtain ⟨b, mem, rfl⟩ := exists_of_nextSend? next
    exact ⟨b, mem, Nat.min_le_left _ _⟩
  · next none_ =>
    simp only [none_] at soon
    omega

end Ending

/-- The first signal to come is a stop at this time. It comes as soon as the time is reached, and no
second one follows before the next start. -/
structure EndsOnce (time : Nat) (later : List Note) : Prop where
  stop : (∃ n ∈ later, time ≤ n.beat.time) → ∃ quiet n rest, later = quiet ++ n :: rest ∧
    signals quiet = [] ∧ n.said = some .stop ∧ n.beat.time = time ∧
    (signals rest).head? ≠ some .stop
  quiet : (∀ n ∈ later, n.beat.time < time) → signals later = []

/-- Something silent may come first, before the idle time is over. -/
theorem EndsOnce.cons {last : Nat} {bs : List Beat} (ordered : Ordered bs)
    (after : ∀ b ∈ bs, last ≤ b.time) (h : EndsOnce (ending d.idle last bs) (d.notes bs))
    (silent : n.said = none) (soon : n.beat.time < last + d.idle) :
    EndsOnce (ending d.idle last bs) (n :: d.notes bs) where
  stop := by
    rintro ⟨m, mem, le⟩
    have still : ∃ m ∈ d.notes bs, ending d.idle last bs ≤ m.beat.time := by
      rcases List.mem_cons.mp mem with rfl | mem
      · exact exists_mem_notes.mpr (exists_of_ending_lt ordered after (Nat.lt_of_le_of_lt le soon))
      · exact ⟨m, mem, le⟩
    obtain ⟨quiet, stop, rest, eq, silence, more⟩ := h.stop still
    rw [eq]
    exact ⟨n :: quiet, stop, rest, rfl, by simpa [signals, silent] using silence, more⟩
  quiet early := by
    have rest := h.quiet fun m mem => early m (List.mem_cons_of_mem _ mem)
    simpa [signals, silent] using rest

/-- As long as typing is not announced, no stop comes. -/
theorem head?_signals_notes (silent : d.announced = false) (unset : d.deadline = none)
    (bs : List Beat) : (signals (d.notes bs)).head? ≠ some .stop := by
  induction bs with
  | nil => simp [notes, signals]
  | cons b bs ih =>
    have meets := meets_meet (d := d) (by rw [silent, unset]; rfl) b
    rw [notes]
    generalize (d.meet b).1 = d', (d.meet b).2 = said at meets ⊢
    cases meets with
    | begins => simp [signals]
    | goesOn _ announced => simp [silent] at announced
    | ends announced => simp [silent] at announced
    | passes => simpa [signals] using ih

/-- What ends at once ends with a stop, and the next signal is a start. -/
theorem EndsOnce.now {later : List Note} (stop : n.said = some .stop)
    (rest : (signals later).head? ≠ some .stop) : EndsOnce n.beat.time (n :: later) where
  stop _ := ⟨[], n, later, rfl, rfl, stop, rfl, rest⟩
  quiet early := absurd (early n List.mem_cons_self) (Nat.lt_irrefl _)

/-- A burst that has begun ends once. -/
theorem ends_of_typing {last : Nat} {bs : List Beat} (announced : d.announced = true)
    (set : d.deadline = some (last + d.idle)) (punctual : d.Punctual bs) (ordered : Ordered bs)
    (after : ∀ b ∈ bs, last ≤ b.time) : EndsOnce (ending d.idle last bs) (d.notes bs) := by
  induction bs generalizing d last with
  | nil => exact ⟨by simp [notes], fun _ => rfl⟩
  | cons b bs ih =>
    obtain ⟨now, punctual⟩ := punctual
    obtain ⟨first, ordered⟩ := List.pairwise_cons.mp ordered
    obtain ⟨here, after⟩ := List.forall_mem_cons.mp after
    have now : last + d.idle ≤ b.time → b = ⟨.poll, last + d.idle⟩ := now _ (by simp [set])
    -- The first beat goes on with the burst, ends it, or passes. In the two cases in which it goes
    -- on what follows is a burst that began later, or the same.
    have meets := meets_meet (by rw [announced, set]; rfl) b
    rw [notes]
    generalize (d.meet b).1 = d', (d.meet b).2 = said at meets punctual ⊢
    cases meets with
    | begins _ silent => simp [announced] at silent
    | goesOn hit =>
      have soon : b.time < last + d.idle := by
        by_contra late
        rw [now (Nat.le_of_not_lt late)] at hit
        cases hit
      rw [ending_keystroke hit soon]
      exact .cons ordered first (ih rfl rfl punctual ordered first) rfl
        (show b.time < b.time + d.idle by omega)
    | ends _ reason =>
      have rest :=
        head?_signals_notes (d := { d with announced := false, deadline := none }) rfl rfl bs
      rcases reason with send | ⟨poll, due, mem, come⟩
      · have soon : b.time ≤ last + d.idle := by
          by_contra late
          rw [now (Nat.le_of_not_le late)] at send
          cases send
        rw [ending_send send soon]
        exact .now (n := ⟨b, some .stop⟩) rfl rest
      · -- The time is over exactly now, and nothing that comes later belongs to the burst.
        obtain rfl : last + d.idle = due := by simpa [set] using mem
        obtain rfl := now come
        rw [ending_poll rfl, ending_of_late first]
        exact .now (n := ⟨⟨.poll, _⟩, some .stop⟩) rfl rest
    | passes other send poll =>
      have polled : b.what = .poll := by
        cases what : b.what with
        | keystroke => exact absurd what other
        | poll => rfl
        | send => exact absurd (set.symm.trans (send what)) (by simp)
      rw [ending_poll polled]
      exact .cons ordered after (ih announced set punctual ordered after) rfl
        (poll polled _ (by simp [set]))

/-! ## All of it -/

/-- The keystroke at this time begins a burst, after what has been noted: it is the first one, a
message has been sent since the last one, or the idle time is over. -/
def Begins (idle : Nat) (before : List Note) (time : Nat) : Prop :=
  ∀ k since, lastKeystroke? before = some (k, since) →
    (∃ n ∈ since, n.beat.what = .send) ∨ k + idle ≤ time

/-- What can be said of a debouncer and of what it has announced, at any time. -/
structure Told (idle : Nat) (ns : List Note) (d : Debouncer) : Prop where
  armed : d.announced = true ↔ d.deadline.isSome = true
  started : d.announced = true ↔ (signals ns).getLast? = some .start
  alternate : ∀ k s, (signals ns)[k]? = some s → s = if k % 2 = 0 then .start else .stop
  deadline : ∀ due, d.deadline = some due → ∃ k since, lastKeystroke? ns = some (k, since) ∧
    due = k + idle
  poll : ∀ now, (d.poll now).2 = some .stop ↔ ∃ k since, lastKeystroke? ns = some (k, since) ∧
    (∀ n ∈ since, n.beat.what ≠ .send) ∧ (∀ n ∈ since, n.said ≠ some .stop) ∧ k + idle ≤ now

/-- What is announced if someone is punctual. -/
structure Timely (idle : Nat) (ns : List Note) : Prop where
  /-- The first keystroke of every burst is announced, and no other one. -/
  starts : ∀ before n later, ns = before ++ n :: later → n.beat.what = .keystroke →
    (n.said = some .start ↔ Begins idle before n.beat.time)
  /-- The end of every burst is announced, once and in time. -/
  ends : ∀ before n later, ns = before ++ n :: later → n.said = some .start →
    EndsOnce (ending idle n.beat.time (later.map Note.beat)) later

/-- All that is promised of the notes follows from what they tell of the debouncer. -/
theorem Tells.told (h : Tells idle ns d) : Told idle ns d where
  armed := by rw [h.armed]
  started := h.alternates.getLast?_iff
  alternate _ _ := h.alternates.eq_of_getElem?
  deadline due set := by
    obtain ⟨k, since, last, eq, -⟩ := (h.deadline due).mp set
    exact ⟨k, since, last, eq⟩
  poll now := by
    have stops : (d.poll now).2 = some .stop ↔ ∃ due ∈ d.deadline, due ≤ now := by
      rw [poll, isDue]
      cases d.deadline with
      | none => simp
      | some due => by_cases come : due ≤ now <;> simp [come]
    rw [stops]
    constructor
    · rintro ⟨due, mem, come⟩
      obtain ⟨k, since, last, rfl, quiet⟩ := (h.deadline due).mp mem
      exact ⟨k, since, last, fun n mem => (quiet n mem).1, fun n mem => (quiet n mem).2, come⟩
    · rintro ⟨k, since, last, unsent, unstopped, come⟩
      have quiet := fun n mem => And.intro (unsent n mem) (unstopped n mem)
      exact ⟨k + idle, (h.deadline _).mpr ⟨k, since, last, rfl, quiet⟩, come⟩

private theorem punctual_append {bs more : List Beat} (h : d.Punctual (bs ++ more)) :
    (d.after bs).Punctual more := by
  induction bs generalizing d with
  | nil => exact h
  | cons b bs ih => exact ih h.2

private theorem subset_of_lastKeystroke? {k : Nat} {since : List Note}
    (last : lastKeystroke? ns = some (k, since)) : since ⊆ ns := by
  induction ns with
  | nil => cases last
  | cons n ns ih =>
    rw [lastKeystroke?, Option.or_eq_some_iff] at last
    rcases last with last | ⟨-, last⟩
    · exact List.subset_cons_of_subset n (ih last)
    · split at last
      · cases last
        exact List.subset_cons_self n since
      · cases last

/-- If someone is punctual, typing is no longer announced when a burst begins, and only then. -/
theorem silent_iff_begins (h : Tells idle ns d) (hit : b.what = .keystroke)
    (now : ∀ due ∈ d.deadline, due ≤ b.time → b = ⟨.poll, due⟩)
    (before : ∀ n ∈ ns, n.beat.time ≤ b.time) :
    d.announced = false ↔ Begins idle ns b.time := by
  rw [h.armed, Option.isSome_eq_false_iff, Option.isNone_iff_eq_none]
  constructor
  · intro unset k since last
    by_contra neither
    rw [not_or, not_exists, Nat.not_le] at neither
    -- Neither a message nor the time has ended the typing.
    have quiet : ∀ n ∈ since, n.beat.what ≠ .send ∧ n.said ≠ some .stop := by
      intro n mem
      have unsent : n.beat.what ≠ .send := fun send => neither.1 n ⟨mem, send⟩
      refine ⟨unsent, fun stop => ?_⟩
      have late := (h.stops k since last n mem stop).resolve_left unsent
      have soon := before n (subset_of_lastKeystroke? last mem)
      exact absurd (Nat.lt_of_lt_of_le neither.2 late) (Nat.not_lt.mpr soon)
    have set := (h.deadline (k + idle)).mpr ⟨k, since, last, rfl, quiet⟩
    rw [unset] at set
    cases set
  · intro begins
    by_contra armed
    obtain ⟨due, set⟩ := Option.ne_none_iff_exists'.mp armed
    obtain ⟨k, since, last, rfl, quiet⟩ := (h.deadline due).mp set
    rcases begins k since last with ⟨n, mem, send⟩ | elapsed
    · exact (quiet n mem).1 send
    · rw [now _ set elapsed] at hit
      cases hit

private theorem timely_notes {bs : List Beat} (ordered : Ordered bs)
    (punctual : Punctual { idle } bs) :
    Timely idle (notes { idle } bs) where
  starts before n later eq hit := by
    -- Up to the keystroke there was a run, after which typing is announced or not.
    obtain ⟨bs₁, bs₂, rfl, rfl, said, -⟩ := exists_of_notes_eq eq
    have earlier : ∀ m ∈ notes { idle } bs₁, m.beat.time ≤ n.beat.time := by
      intro m mem
      have mem' : m.beat ∈ bs₁ := map_beat_notes (d := { idle }) bs₁ ▸ List.mem_map_of_mem mem
      exact (List.pairwise_append.mp ordered).2.2 _ mem' _ List.mem_cons_self
    rw [← silent_iff_begins (tells_notes idle bs₁) hit (punctual_append punctual).1 earlier, ← said,
      meet, hit]
    simp [keystroke]
  ends before n later eq start := by
    obtain ⟨bs₁, bs₂, rfl, rfl, said, rfl⟩ := exists_of_notes_eq eq
    have tells := tells_notes idle bs₁
    obtain ⟨first, ordered⟩ := List.pairwise_cons.mp (List.pairwise_append.mp ordered).2.1
    have punctual := (punctual_append punctual).2
    have meets := meets_meet tells.armed n.beat
    rw [map_beat_notes]
    rw [said, start] at meets
    generalize ((after { idle } bs₁).meet n.beat).1 = d' at meets punctual ⊢
    cases meets with
    | begins =>
      rw [tells.idle_eq] at punctual ⊢
      exact ends_of_typing rfl rfl punctual ordered first

/-- Whatever is done and whenever, the debouncer has a deadline exactly as long as it has announced
typing and not its end, and signals alternate. The deadline is that of the last keystroke, and when
it comes the end is announced, unless that has happened already. If someone looks at every deadline
right when it comes, the beginning and the end of every burst are announced, and nothing else. -/
theorem notes_told (idle : Nat) (bs : List Beat) :
    Told idle (notes { idle } bs) (after { idle } bs) ∧
      (Ordered bs → Punctual { idle } bs → Timely idle (notes { idle } bs)) :=
  ⟨(tells_notes idle bs).told, timely_notes⟩

end Debouncer

/-! ### A detour

Typing ends by itself, then by a message, and then it goes on past its first deadline. -/

namespace Detour

def fingers : List Debouncer.Beat := [
  ⟨.keystroke, 0⟩, ⟨.keystroke, 500⟩, ⟨.poll, 2000⟩, ⟨.poll, 2500⟩, ⟨.keystroke, 2500⟩,
  ⟨.send, 3600⟩, ⟨.poll, 4500⟩, ⟨.keystroke, 5000⟩, ⟨.keystroke, 6999⟩, ⟨.poll, 8999⟩,
  ⟨.send, 9000⟩]

end Detour

theorem notes_told_detour :
    Debouncer.Ordered Detour.fingers ∧ Debouncer.Punctual { idle := 2000 } Detour.fingers ∧
      Debouncer.Timely 2000 (Debouncer.notes { idle := 2000 } Detour.fingers) ∧
      Debouncer.signals (Debouncer.notes { idle := 2000 } Detour.fingers) =
        [.start, .stop, .start, .stop, .start, .stop] := by
  have ordered : Debouncer.Ordered Detour.fingers := by
    unfold Debouncer.Ordered
    decide
  have punctual : Debouncer.Punctual { idle := 2000 } Detour.fingers := by decide
  exact ⟨ordered, punctual,
    (Debouncer.notes_told 2000 Detour.fingers).2 ordered punctual, by decide⟩

end ChatClient
