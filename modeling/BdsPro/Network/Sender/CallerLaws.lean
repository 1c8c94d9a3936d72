import BdsPro.Network.Sender.ConnectionHandlerLaws

/-! The registrations of a connection handler as its callers know them: by the channels for which
they were made, and by whether they have been answered. -/

namespace BdsPro.Network.Sender

open BdsPro.Library

def NetworkingConnectionControlMessage.unanswered :
    NetworkingConnectionControlMessage → Option Registration
  | .registerChannel _ r => some r
  | .retryChannel _ _ => none

def Attempt.unanswered (a : Attempt) : Option Registration :=
  if a.phase = .responding then some a.registration else none

abbrev Naming := Registration × ChannelIdentifier

def NetworkingConnectionControlMessage.naming : NetworkingConnectionControlMessage → Naming
  | .registerChannel c r | .retryChannel c r => (r, c)

def Attempt.naming (a : Attempt) : Naming := (a.registration, a.channel)

def ChannelTask.naming (h : ChannelTask) : Naming := (h.registration, h.channel)

namespace ConnectionHandler

def namings (c : ConnectionHandler) : Multiset Naming :=
  c.control.map (·.naming) + c.attempts.map Attempt.naming + c.tasks.map ChannelTask.naming

def registers : Action → Option ChannelIdentifier
  | .register c => some c
  | _ => none

theorem attempts_naming {l : List Attempt} (attempt : l[i]? = some a) (p : AttemptPhase) :
    (l.set i { a with phase := p }).map Attempt.naming = l.map Attempt.naming :=
  Table.map_set_eq attempt rfl

theorem tasks_naming {l : List ChannelTask} (task : l[i]? = some h) (p : ChannelTaskPhase) :
    (l.set i { h with phase := p }).map ChannelTask.naming = l.map ChannelTask.naming :=
  Table.map_set_eq task rfl

theorem namings_of_serve {c d : ConnectionHandler} (hs : c.serve = some d) :
    d.namings = c.namings := by
  obtain ⟨m, rest, control, rfl⟩ := serve_eq_some hs
  have hnaming : (attemptFor m).naming = m.naming := by cases m <;> rfl
  simp only [namings, control, List.map_cons, List.map_append, List.map_nil, hnaming,
    ← Multiset.coe_add, ← Multiset.cons_coe, ← Multiset.singleton_add]
  abel

theorem namings_of_step {c d : ConnectionHandler} (hs : c.step a = some d) :
    ∀ x ∈ d.namings, x ∈ c.namings ∨ registers a = some x.2 ∧ x.1 = c.registrations := by
  by_cases hserve : a = .serve
  · subst hserve
    exact fun x hx => .inl (namings_of_serve hs ▸ hx)
  · cases step_sound hs with
    | serve => contradiction
    | register name =>
      intro x hx
      simp only [namings, registers, List.map_append, Multiset.mem_add, List.map_cons, List.map_nil,
        NetworkingConnectionControlMessage.naming, ← Multiset.coe_add, Multiset.coe_singleton,
        Multiset.mem_singleton] at hx ⊢
      obtain ((hx | rfl) | hx) | hx := hx
      · exact .inl (.inl (.inl hx))
      · exact .inr ⟨rfl, rfl⟩
      · exact .inl (.inl (.inr hx))
      · exact .inl (.inr hx)
    | respond attempt | abandon attempt | sendFailed attempt | send attempt
    | awaitFailed attempt | await attempt | wake attempt | badConnection _ _ attempt | rejected _ _ attempt =>
      intro x hx
      simp only [namings, attempts_naming attempt] at hx ⊢
      exact .inl hx
    | established _ _ attempt =>
      intro x hx
      simp only [namings, attempts_naming attempt, List.map_append, ← Multiset.coe_add,
        Multiset.mem_add, List.map_cons, List.map_nil, Multiset.coe_singleton,
        Multiset.mem_singleton, ChannelTask.naming] at hx ⊢
      obtain hx | hx | rfl := hx
      · exact .inl (.inl hx)
      · exact .inl (.inr hx)
      · exact .inl (.inl (.inr (List.mem_map.mpr ⟨_, List.mem_of_getElem? attempt, rfl⟩)))
    | lost task | finished task =>
      intro x hx
      simp only [namings, tasks_naming task] at hx ⊢
      exact .inl hx
    | retry task =>
      intro x hx
      simp only [namings, tasks_naming task, List.map_append, ← Multiset.coe_add,
        Multiset.mem_add, List.map_cons, List.map_nil, Multiset.coe_singleton,
        Multiset.mem_singleton, NetworkingConnectionControlMessage.naming] at hx ⊢
      obtain ((hx | rfl) | hx) | hx := hx
      · exact .inl (.inl (.inl hx))
      · exact .inl (.inr (List.mem_map.mpr ⟨_, List.mem_of_getElem? task, rfl⟩))
      · exact .inl (.inl (.inr hx))
      · exact .inl (.inr hx)
    | _ => exact fun x hx => .inl hx

theorem registrations_of_step {c d : ConnectionHandler} (hs : c.step a = some d) :
    d.registrations = c.registrations + (registers a).toList.length := by
  cases step_sound hs with
  | badConnection event => obtain rfl | rfl := event <;> rfl
  | _ => rfl

def unanswered (c : ConnectionHandler) : Multiset Registration :=
  c.control.filterMap (·.unanswered) + c.attempts.filterMap Attempt.unanswered

def asked (c : ConnectionHandler) (a : Action) : Multiset Registration :=
  ((registers a).map fun _ => c.registrations).toList

def answered (c : ConnectionHandler) : Action → Multiset Registration
  | .respond i _ => (c.attempts[i]?.map Attempt.registration).toList
  | _ => 0

theorem answered_respond {c : ConnectionHandler} (attempt : c.attempts[i]? = some a) :
    c.answered (.respond i ok) = {a.registration} := by
  rw [answered, attempt]
  rfl

theorem attempts_unanswered {l : List Attempt} (attempt : l[i]? = some a)
    (source : a.phase ≠ .responding) (target : p ≠ .responding) :
    ((l.set i { a with phase := p }).filterMap Attempt.unanswered : Multiset Registration) =
      l.filterMap Attempt.unanswered :=
  Table.filterMap_set_eq attempt (by simp [Attempt.unanswered, source, target])

theorem attempts_answered {l : List Attempt} (attempt : l[i]? = some a)
    (source : a.phase = .responding) (target : p ≠ .responding) :
    (l.filterMap Attempt.unanswered : Multiset Registration) =
      (l.set i { a with phase := p }).filterMap Attempt.unanswered + {a.registration} :=
  Table.filterMap_set_none attempt (by simp [Attempt.unanswered, source])
    (by simp [Attempt.unanswered, target])

theorem unanswered_of_serve {c d : ConnectionHandler} (hs : c.serve = some d) :
    d.unanswered = c.unanswered := by
  obtain ⟨m, rest, control, rfl⟩ := serve_eq_some hs
  have hwaits : (attemptFor m).unanswered = m.unanswered := by cases m <;> rfl
  have hattempts : (c.attempts ++ [attemptFor m]).filterMap Attempt.unanswered =
      c.attempts.filterMap Attempt.unanswered ++ m.unanswered.toList :=
    hwaits ▸ Table.filterMap_concat _ _ _
  have hcontrol : c.control.filterMap (·.unanswered) =
      m.unanswered.toList ++ rest.filterMap (·.unanswered) := by
    rw [control]
    cases m <;> rfl
  simp only [unanswered, hattempts, hcontrol, ← Multiset.coe_add]
  abel

theorem unanswered_of_attempts {c d : ConnectionHandler} (attempt : c.attempts[i]? = some a)
    (source : a.phase ≠ .responding) (target : p ≠ .responding) (control : d.control = c.control)
    (attempts : d.attempts = c.attempts.set i { a with phase := p }) :
    d.unanswered = c.unanswered := by
  rw [unanswered, control, attempts, attempts_unanswered attempt source target]
  rfl

theorem unanswered_of_answer {c d : ConnectionHandler} (attempt : c.attempts[i]? = some a)
    (source : a.phase = .responding) (target : p ≠ .responding) (control : d.control = c.control)
    (attempts : d.attempts = c.attempts.set i { a with phase := p }) :
    d.unanswered + {a.registration} = c.unanswered := by
  rw [unanswered, unanswered, control, attempts, attempts_answered attempt source target,
    ← add_assoc]

theorem unanswered_of_step {c d : ConnectionHandler} (h : c.establisher ≠ .ended → c.Queued)
    (hs : c.step a = some d) : d.unanswered + c.answered a = c.unanswered + c.asked a := by
  by_cases hserve : a = .serve
  · subst hserve
    exact congrArg (· + 0) (unanswered_of_serve hs)
  · cases step_sound hs with
    | serve => contradiction
    | register name =>
      simp only [unanswered, answered, asked, registers, List.filterMap_append, ← Multiset.coe_add]
      simp [NetworkingConnectionControlMessage.unanswered, add_right_comm]
    | respond attempt phase | abandon attempt phase =>
      rw [answered_respond attempt]
      refine Eq.trans ?_ (add_zero _).symm
      exact unanswered_of_answer attempt phase (by simp) rfl rfl
    | sendFailed attempt phase | send attempt phase | awaitFailed attempt phase
    | await attempt phase | wake attempt phase =>
      exact congrArg (· + 0)
        (unanswered_of_attempts attempt (by simp [phase]) (by simp) rfl rfl)
    | badConnection event hand attempt =>
      have phase := waiting_of_hand h hand attempt
      obtain rfl | rfl := event
      · exact congrArg (· + 0)
          (unanswered_of_attempts attempt (by simp [phase]) (by simp) rfl rfl)
      · exact congrArg (· + 0)
          (unanswered_of_attempts attempt (by simp [phase]) (by simp) rfl rfl)
    | established establisher _ attempt | rejected establisher _ attempt =>
      have phase := waiting_of_hand h (.inr establisher) attempt
      exact congrArg (· + 0)
        (unanswered_of_attempts attempt (by simp [phase]) (by simp) rfl rfl)
    | retry task =>
      refine congrArg (· + 0) ?_
      simp [unanswered, NetworkingConnectionControlMessage.unanswered]
    | _ => rfl

theorem unanswered_add_tasks_le (c : ConnectionHandler) :
    c.unanswered + c.tasks.filterMap ChannelTask.owner ≤ c.owners := by
  have hcontrol : (c.control.filterMap (·.unanswered)).Sublist
      (c.control.filterMap fun m => some m.registration) :=
    Table.filterMap_sublist fun m r hr => by
      cases m with
      | registerChannel => exact hr
      | retryChannel => contradiction
  have hattempts : (c.attempts.filterMap Attempt.unanswered).Sublist
      (c.attempts.filterMap Attempt.owner) :=
    Table.filterMap_sublist fun a r hr => by
      obtain ⟨hphase, hr⟩ := Option.ite_none_right_eq_some.mp hr
      simp [Attempt.owner, AttemptPhase.pending, hphase, Option.some.inj hr]
  rw [List.filterMap_eq_map'] at hcontrol
  refine add_le_add_left (add_le_add ?_ ?_) _
  · exact Multiset.coe_le.mpr hcontrol.subperm
  · exact Multiset.coe_le.mpr hattempts.subperm

theorem nodup_unanswered {c : ConnectionHandler} (h : machine.Reachable c) :
    (c.unanswered + c.tasks.filterMap ChannelTask.owner).Nodup := by
  refine Multiset.nodup_of_le
    (c.unanswered_add_tasks_le.trans (Multiset.le_add_right _ c.released)) ?_
  exact conserved_of_reachable h ▸ Multiset.nodup_range _

theorem answered_of_task {c : ConnectionHandler} (h : machine.Reachable c) (ht : task ∈ c.tasks)
    (live : task.phase ≠ .ended) : task.registration ∉ c.unanswered := by
  intro hmem
  refine Multiset.disjoint_left.mp (Multiset.nodup_add.mp (nodup_unanswered h)).2.2 hmem ?_
  exact List.mem_filterMap.mpr ⟨task, ht, if_neg live⟩

theorem mem_unanswered_of_respond {c d : ConnectionHandler} (h : machine.Reachable c)
    (hs : c.step (.respond i ok) = some d) (attempt : c.attempts[i]? = some a) (r : Registration) :
    r ∈ d.unanswered ↔ r ∈ c.unanswered ∧ r ≠ a.registration := by
  have hstep : d.unanswered + {a.registration} = c.unanswered := by
    have hstep := unanswered_of_step (queued_of_reachable h) hs
    rw [answered_respond attempt] at hstep
    exact hstep.trans (add_zero _)
  have hnodup : c.unanswered.Nodup := (Multiset.nodup_add.mp (nodup_unanswered h)).1
  rw [← hstep, Multiset.nodup_add] at hnodup
  rw [← hstep, Multiset.mem_add, Multiset.mem_singleton]
  constructor
  · rintro hr
    refine ⟨.inl hr, ?_⟩
    rintro rfl
    exact Multiset.disjoint_left.mp hnodup.2.2 hr (Multiset.mem_singleton_self _)
  · rintro ⟨hr | rfl, hne⟩
    · exact hr
    · exact absurd rfl hne

end ConnectionHandler

end BdsPro.Network.Sender
