import ChatClient.Session.Simulation

/-!
# A simulation is a run

In virtual time the next thing that happens is chosen: answers before outcomes, outcomes before
texts, texts before timers. Whatever is chosen is one of the things that can happen next, so that
the client of a simulation has always come about by a run, and all that holds of runs holds of it.
A command is one step of the run, and all that happens by itself is a run without commands.

## Main definitions

* `Happening.command?`, `Simulation.Act.command?`: the commands of a run and of a script
* `Simulation.Reaches`: the client of one simulation becomes that of another by a run in which it
  is given certain commands

## Main results

* `reaches_apply`, `reaches_settle`, `reaches_wait`: what is done with a simulation, commands apart,
  is a run of its client without commands
* `reaches_play`: whatever is done with a simulation, one thing after the other, is a run of its
  client with the same commands
-/

namespace ChatClient

/-- The command that the client is given when this happens. -/
def Happening.command? : Happening → Option SessionCommand
  | .turn (.command c) => some c
  | _ => none

/-- Where a run has no commands, nothing in it is one. -/
theorem Happening.ne_command_of_filterMap {hs : List Happening}
    (free : hs.filterMap Happening.command? = []) :
    ∀ h ∈ hs, ∀ c, h ≠ .turn (.command c) := by
  rintro h mem c rfl
  have none_ := List.filterMap_eq_nil_iff.1 free _ mem
  contradiction

namespace Network

/-- An attempt that is settled while it runs is settled as one that may have been given up. Others
are left alone. -/
private theorem settle_eq_settleLate_or (n : Network) (i : Nat) (h : Handshake) :
    n.settle i h = n.settleLate i h ∨ n.settle i h = n := by
  rw [settle, settleLate]
  cases n.attempts[i]? with
  | none => exact .inl rfl
  | some a =>
    by_cases running : a.status = .running
    · left
      simp [running]
    · right
      simp [running]

/-- What happens to a link depends on that link only. -/
private theorem onLink_congr (n : Network) {i : Nat} {f g : Link → Link}
    (same : ∀ l, n.links[i]? = some l → f l = g l) : n.onLink i f = n.onLink i g := by
  have links : n.links.modify i f = n.links.modify i g := by
    apply List.ext_getElem?
    intro j
    rw [List.getElem?_modify, List.getElem?_modify]
    by_cases here : i = j
    · subst here
      cases hl : n.links[i]? with
      | none => rfl
      | some l => simp [same l hl]
    · simp [here]
  rw [onLink, links]
  rfl

end Network

namespace Simulation

open Client

/-- The command that the client is given. -/
def Act.command? : Act → Option SessionCommand
  | .command c => some c
  | _ => none

/-- The client of the first simulation becomes that of the second by a run with these commands. -/
def Reaches (s s' : Simulation) (cs : List SessionCommand) : Prop :=
  ∃ hs, hs.filterMap Happening.command? = cs ∧ s'.client = s.client.run hs

variable {s s' s'' : Simulation} {cs cs' : List SessionCommand}

theorem Reaches.refl (s : Simulation) : s.Reaches s [] := ⟨[], rfl, rfl⟩

/-- What is reached in two stretches is reached, with the commands of both. -/
theorem Reaches.trans (h : s.Reaches s' cs) (h' : s'.Reaches s'' cs') :
    s.Reaches s'' (cs ++ cs') := by
  obtain ⟨hs, rfl, first⟩ := h
  obtain ⟨hs', rfl, second⟩ := h'
  exact ⟨hs ++ hs', List.filterMap_append, by rw [run_append, ← first, second]⟩

private theorem reaches_of_client_eq (h : s'.client = s.client) : s.Reaches s' [] := ⟨[], rfl, h⟩

private theorem reaches_of_step {h : Happening} (step : s'.client = s.client.step h) :
    s.Reaches s' h.command?.toList := by
  refine ⟨[h], ?_, step⟩
  rw [List.filterMap_cons, List.filterMap_nil]
  cases h.command? <;> rfl

/-! ## One thing at a time -/

private theorem reaches_command (s : Simulation) (c : SessionCommand) :
    s.Reaches (s.command c) [c] :=
  reaches_of_step (h := .turn (.command c)) rfl

private theorem reaches_answer (running : s.client.stopped = false) (h : s.answer? = some s') :
    s.Reaches s' [] := by
  rw [answer?] at h
  split at h
  · obtain rfl := Option.some.inj h
    split
    · exact reaches_of_client_eq rfl
    · exact reaches_of_client_eq rfl
    · next answer _ _ =>
      rcases s.client.toNetwork.settle_eq_settleLate_or s.answered answer with late | same
      · apply reaches_of_step (h := .settle s.answered answer)
        simp only [late, Client.step, running]
        rfl
      · exact reaches_of_client_eq (by simp only [same])
  · contradiction

/-- The client takes a turn of its own. -/
theorem reaches_after {t : Turn} (free : (Happening.turn t).command? = none)
    {after : Option Client} (turn : s.client.step (.turn t) = after.getD s.client)
    (h : s.after after = some s') : s.Reaches s' [] := by
  obtain ⟨c, rfl, rfl⟩ := Option.map_eq_some_iff.1 h
  have reached : s.Reaches { s with client := c } (Happening.turn t).command?.toList :=
    reaches_of_step turn.symm
  rwa [free] at reached

/-- A timer that goes off is a turn of the client. -/
theorem reaches_timer (h : s.timer? = some s') : s.Reaches s' [] := by
  rw [timer?] at h
  split at h
  · contradiction
  · next going =>
    exact reaches_after (t := .timer) rfl (step_of_running (by simpa using going) _) h

/-- Whatever happens next without time passing is one thing that happens to the client. -/
theorem reaches_advance (h : s.advance? = some s') : s.Reaches s' [] := by
  rw [advance?] at h
  split at h
  · contradiction
  · next going =>
    have running : s.client.stopped = false := by simpa using going
    simp only [Option.orElse_eq_orElse, Option.orElse_eq_or, Option.or_eq_some_iff] at h
    rcases h with answer | ⟨-, outcome | ⟨-, listen | ⟨-, timer⟩⟩⟩
    · exact reaches_answer running answer
    · exact reaches_after (t := .outcome) rfl (step_of_running running _) outcome
    · exact reaches_after (t := .listen) rfl (step_of_running running _) listen
    · exact reaches_timer timer

/-! ## Until time has to pass, and beyond -/

private theorem reaches_settleFrom (fuel : Nat) (s : Simulation) :
    s.Reaches (settleFrom fuel s) [] := by
  induction fuel generalizing s with
  | zero => exact .refl s
  | succ fuel ih =>
    rw [settleFrom]
    split
    · exact .refl s
    · next advanced => exact (reaches_advance advanced).trans (ih _)

/-- All that is due happens, with no command among it. -/
theorem reaches_settle (s : Simulation) : s.Reaches s.settle [] := reaches_settleFrom _ s

/-- Time passes. -/
theorem reaches_atTime (s : Simulation) (now : Nat) : s.Reaches (s.atTime now) [] := by
  apply reaches_of_step (h := .pass (now - s.client.now))
  have later : max s.client.now now = s.client.now + (now - s.client.now) := by omega
  rw [atTime, later]
  rfl

private theorem reaches_waitFrom (fuel deadline : Nat) (s : Simulation) :
    s.Reaches (waitFrom fuel deadline s) [] := by
  induction fuel generalizing s with
  | zero => exact s.reaches_atTime deadline
  | succ fuel ih =>
    rw [waitFrom]
    split
    · exact s.reaches_atTime deadline
    · next due _ =>
      split
      · exact ((s.reaches_atTime due).trans (reaches_settle _)).trans (ih _)
      · exact s.reaches_atTime deadline

/-- While a simulation waits no command comes. -/
theorem reaches_wait (s : Simulation) (ms : Nat) : s.Reaches (s.wait ms) [] :=
  reaches_waitFrom _ _ s

/-! ## The world around the client -/

private theorem reaches_onLink (link : Option Nat) (p : Link → Bool) {f : Link → Link}
    (happens : ∀ i l, s.client.links[i]? = some l → p l = true →
      ∃ hs, hs.filterMap Happening.command? = [] ∧
        { s.client with toNetwork := s.client.toNetwork.onLink i f } = s.client.run hs) :
    s.Reaches (s.onLink link p f).1 [] := by
  rw [onLink]
  cases target : s.target? link p with
  | none => exact .refl s
  | some i =>
    rw [target?] at target
    split at target
    · next l hl =>
      split at target
      · next passes =>
        obtain rfl := Option.some.inj target
        exact happens _ l hl passes
      · contradiction
    · contradiction

/-- Whatever is done to the world around a client can happen to it in a run. -/
theorem reaches_apply (s : Simulation) (w : WorldStep) : s.Reaches (s.apply w).1 [] := by
  cases w with
  | settle h =>
    rw [apply]
    cases s.client.pending with
    | none => exact .refl s
    | some i => exact reaches_of_step (h := .settle i h) rfl
  | push link text =>
    refine reaches_onLink link _ fun i l hl listening => ⟨[.push i text], rfl, ?_⟩
    have pushed : s.client.toNetwork.onLink i (Link.push · text) =
        s.client.toNetwork.onLink i fun l => if l.listening then l.push text else l := by
      apply Network.onLink_congr
      intro k hk
      obtain rfl := Option.some.inj (hl.symm.trans hk)
      rw [if_pos listening]
    rw [pushed]
    rfl
  | drop link =>
    refine reaches_onLink link _ fun i _ _ _ => ⟨[.deafen i, .hangUp i], rfl, ?_⟩
    -- A link that is dropped ends in both directions.
    have finished : s.client.toNetwork.onLink i Link.finish =
        (s.client.toNetwork.onLink i Link.deafen).onLink i Link.hangUp := by
      rw [Network.onLink, Network.onLink, Network.onLink, List.modify_modify_eq]
      rfl
    rw [finished]
    rfl
  | deafen link => exact reaches_onLink link _ fun i _ _ _ => ⟨[.deafen i], rfl, rfl⟩
  | files change => exact reaches_of_step (h := .disk _) rfl

/-! ## Scripts -/

private theorem reaches_act (s : Simulation) (a : Act) : s.Reaches (s.act a) a.command?.toList := by
  cases a with
  | command c => exact s.reaches_command c
  | world w => exact s.reaches_apply w
  | wait ms => exact s.reaches_wait ms
  | settle => exact s.reaches_settle

/-- Whatever is done with a simulation, one thing after the other, its client goes through a run in
which it is given the same commands. -/
theorem reaches_play (s : Simulation) (acts : List Act) :
    s.Reaches (s.play acts) (acts.filterMap Act.command?) := by
  induction acts generalizing s with
  | nil => exact .refl s
  | cons a acts ih =>
    have both := (s.reaches_act a).trans (ih (s.act a))
    rw [List.filterMap_cons]
    cases command : a.command? with
    | none => rwa [command] at both
    | some c => rwa [command] at both

end Simulation

end ChatClient
