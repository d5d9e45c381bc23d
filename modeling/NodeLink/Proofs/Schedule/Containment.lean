import NodeLink.Proofs.Schedule.LiveResults

/-!
# Failures of live results

Results are computed one after the other, each by a worker of its own: the computation may fail, the result may
be refused, at once or after a pause, and all may go well. A failure is noticed once and ends its own
computation. It gets no further, and what comes later is as it would have been without it.
-/

namespace NodeLink.Live

variable {τ σ ρ : Type}

/-- A result is being computed, which comes to the given one, or it is waited for its next phase. -/
inductive Stage (ρ : Type) where
  | computing (result : Except Failure ρ)
  | waiting (phase : Phase ρ)

/-- The computation of a result by a worker, from a text and in a world. -/
structure Recompute (τ σ ρ : Type) where
  worker : Worker τ σ ρ
  text : Json
  world : σ

/-- A computation that is not over. -/
structure Underway (τ σ ρ : Type) where
  recompute : Recompute τ σ ρ
  stage : Stage ρ

/-- A live diagram with one computation at a time: those that are over, and the one that is under way. -/
structure Serial (τ σ ρ : Type) where
  diagram : Diagram τ σ ρ
  ended : List (Recompute τ σ ρ) := []
  current : Option (Underway τ σ ρ) := none

/-! ### What a computation comes to -/

/-- The failure that ends a computation: that of the computation itself, or that of handing over its result. -/
def Worker.failure? (w : Worker τ σ ρ) : Except Failure ρ → Option Failure
  | .error failure => some failure
  | .ok result =>
    match w.delivering, w.handOver result with
    | some (.error failure), _ => some failure
    | _, .error failure => some failure
    | _, .ok () => none

/-- The result that is handed over. -/
def Worker.taken? (w : Worker τ σ ρ) (result : Except Failure ρ) : Option ρ :=
  if (w.failure? result).isSome then none else result.toOption

namespace Recompute

def computed (r : Recompute τ σ ρ) : Computed σ ρ := r.worker.compute r.world r.text

/-- The result, if its computation succeeds. -/
def result? (r : Recompute τ σ ρ) : Option ρ := r.computed.result.toOption

def failure? (r : Recompute τ σ ρ) : Option Failure := r.worker.failure? r.computed.result

def taken? (r : Recompute τ σ ρ) : Option ρ := r.worker.taken? r.computed.result

/-- The notices of the computation, and the one about its failure, if it fails. -/
def notices (r : Recompute τ σ ρ) : List Notice :=
  r.computed.notices ++ r.failure?.toList.map Failure.notice

end Recompute

namespace State

/-- The state once a result, if there is one, has been offered. -/
def offering (s : State σ ρ) (result : Except Failure ρ) : State σ ρ :=
  { s with last := result.toOption.or s.last, offered := s.offered ++ result.toOption.toList }

/-- The state once a computation is over that has come to a result or not. -/
def closing (w : Worker τ σ ρ) (s : State σ ρ) (result : Except Failure ρ) : State σ ρ :=
  { s with
    delivered := s.delivered ++ (w.taken? result).toList
    notices := s.notices ++ (w.failure? result).toList.map Failure.notice }

/-- A computation that ends is over, unless handing over its result takes a pause. -/
theorem finish_cases (w : Worker τ σ ρ) (s : State σ ρ) (result : Except Failure ρ) :
    (∃ given pause, result = .ok given ∧ w.delivering = some (.ok pause) ∧
        s.finish w result = (s.offering result, some (pause, .handOver given))) ∨
      s.finish w result = ((s.offering result).closing w result, none) := by
  cases result with
  | error failure =>
    right
    simp [finish, take, contain, leave, offering, closing, Worker.failure?, Worker.taken?, Except.toOption, noting]
  | ok given =>
    cases hd : w.delivering with
    | none =>
      right
      cases ho : w.handOver given <;>
        simp [finish, take, handOver, contain, leave, offering, closing, Worker.failure?, Worker.taken?,
          Except.toOption, noting, Except.map, hd, ho]
    | some delivering =>
      cases delivering with
      | error failure =>
        right
        simp [finish, take, contain, leave, offering, closing, Worker.failure?, Worker.taken?, Except.toOption,
          noting, hd]
      | ok pause =>
        left
        refine ⟨given, pause, rfl, rfl, ?_⟩
        simp [finish, take, contain, leave, offering, Except.toOption, hd]

theorem resume_eq {w : Worker τ σ ρ} {pause : τ} (hd : w.delivering = some (.ok pause)) (s : State σ ρ)
    (given : ρ) : s.resume w given = (s.closing w (.ok given), none) := by
  cases ho : w.handOver given <;>
    simp [resume, handOver, contain, leave, closing, Worker.failure?, Worker.taken?, Except.toOption, noting,
      Except.map, hd, ho]

end State

/-! ### What can happen -/

/-- What is done from outside, and the timers that ring. -/
inductive Mark (τ : Type) where
  | notify (text : Json)
  | cancel
  | pass (now : τ)
  | fire (text : Json)

/-- The texts whose timers have rung. -/
def texts (marks : List (Mark τ)) : List Json :=
  marks.filterMap fun
    | .fire text => some text
    | .notify _ | .cancel | .pass _ => none

namespace Serial

/-- The computations that have begun. -/
def begun (s : Serial τ σ ρ) : List (Recompute τ σ ρ) := s.ended ++ s.current.toList.map (·.recompute)

/-- Those of them that have come to a result or failed to. -/
def computed (s : Serial τ σ ρ) : List (Recompute τ σ ρ) :=
  s.ended ++ s.current.toList.filterMap fun u =>
    match u.stage with
    | .computing _ => none
    | .waiting _ => some u.recompute

/-- Goes on from the end of a phase. -/
def follow (s : Serial τ σ ρ) (r : Recompute τ σ ρ) (done : State σ ρ × Option (τ × Phase ρ)) :
    Serial τ σ ρ :=
  let diagram := { s.diagram with state := done.1 }
  match done.2 with
  | none => { diagram, ended := s.ended ++ [r], current := none }
  | some (_, phase) => { diagram, ended := s.ended, current := some ⟨r, .waiting phase⟩ }

section

variable [Clock τ]

/-- A text is taken note of, the pending one is dropped, time passes, or a timer rings while no computation is
under way, and a computation begins. -/
inductive Step : Serial τ σ ρ → Mark τ → Serial τ σ ρ → Prop
  | notify {s : Serial τ σ ρ} {text : Json} {d : Diagram τ σ ρ} (hd : s.diagram.notify text = .ok d) :
      Step s (.notify text) { s with diagram := d }
  | cancel {s : Serial τ σ ρ} : Step s .cancel { s with diagram := s.diagram.cancel }
  | pass {s : Serial τ σ ρ} {now : τ} :
      Step s (.pass now) { s with diagram := { s.diagram with timeline := { s.diagram.timeline with now } } }
  | fire {s : Serial τ σ ρ} {text : Json} {l : Timeline τ (Alarm (Phase ρ))} (w : Worker τ σ ρ)
      (hcurrent : s.current = none)
      (hring : s.diagram.timeline.next? = some ([.start (.compute text)], l)) :
      Step s (.fire text)
        { diagram :=
            { Debouncer.perform (routine w) { s.diagram with timeline := l } (.ring (.start (.compute text))) with
              ready := s.diagram.ready
              state := (s.diagram.state.begin w text).1 }
          ended := s.ended
          current := some ⟨⟨w, text, s.diagram.state.world⟩, .computing (s.diagram.state.begin w text).2⟩ }

/-- The computation under way goes through its next phase. -/
inductive Work : Serial τ σ ρ → Serial τ σ ρ → Prop
  | finish {s : Serial τ σ ρ} {r : Recompute τ σ ρ} {result : Except Failure ρ}
      (hcurrent : s.current = some ⟨r, .computing result⟩) :
      Work s (s.follow r (s.diagram.state.finish r.worker result))
  | resume {s : Serial τ σ ρ} {r : Recompute τ σ ρ} {phase : Phase ρ}
      (hcurrent : s.current = some ⟨r, .waiting phase⟩) :
      Work s (s.follow r (Live.step r.worker phase s.diagram.state))

/-- What can happen from the start of a live diagram on. -/
inductive Course (delay : τ) (world : σ) : List (Mark τ) → Serial τ σ ρ → Prop
  | start : Course delay world [] { diagram := Diagram.start (.ok delay) world }
  | step {marks : List (Mark τ)} {s s' : Serial τ σ ρ} {mark : Mark τ} (h : Course delay world marks s)
      (hs : Step s mark s') : Course delay world (marks ++ [mark]) s'
  | work {marks : List (Mark τ)} {s s' : Serial τ σ ρ} (h : Course delay world marks s) (hs : Work s s') :
      Course delay world marks s'

end

/-! ### What a course keeps -/

/-- Each computation begins in the world that the one before it leaves. -/
def Chained (world : σ) : List (Recompute τ σ ρ) → σ → Prop
  | [], final => final = world
  | r :: rs, final => r.world = world ∧ Chained r.computed.world rs final

theorem chained_concat {world final : σ} {rs : List (Recompute τ σ ρ)} {r : Recompute τ σ ρ}
    (h : Chained world rs final) (hr : r.world = final) : Chained world (rs ++ [r]) r.computed.world := by
  induction rs generalizing world with
  | nil => exact ⟨hr.trans h, rfl⟩
  | cons r' rs ih => exact ⟨h.1, ih h.2⟩

/-- The stage that a computation is in is one of its own. -/
def Underway.Sound (u : Underway τ σ ρ) : Prop :=
  match u.stage with
  | .computing result => result = u.recompute.computed.result
  | .waiting phase => ∃ given pause, phase = .handOver given ∧ u.recompute.computed.result = .ok given ∧
      u.recompute.worker.delivering = some (.ok pause)

/-- The state is accounted for by the computations that have begun. -/
structure Contained (world : σ) (s : Serial τ σ ρ) : Prop where
  escaped : s.diagram.state.escaped = []
  offered : s.diagram.state.offered = s.computed.filterMap (·.result?)
  last : s.diagram.state.last = (s.computed.filterMap (·.result?)).getLast?
  delivered : s.diagram.state.delivered = s.ended.filterMap (·.taken?)
  notices : s.diagram.state.notices =
    s.ended.flatMap (·.notices) ++ s.current.toList.flatMap (·.recompute.computed.notices)
  chained : Chained world s.begun s.diagram.state.world
  sound : ∀ u ∈ s.current, Underway.Sound u

variable {delay : τ} {world : σ} {marks : List (Mark τ)} {s s' : Serial τ σ ρ}

theorem contained_start [Clock τ] (delay : τ) (world : σ) :
    Contained world ({ diagram := Diagram.start (.ok delay) world } : Serial τ σ ρ) :=
  ⟨rfl, rfl, rfl, rfl, rfl, rfl, nofun⟩

/-- What is done to the diagram from outside does not touch the state. -/
theorem Contained.outside {d : Diagram τ σ ρ} (h : Contained world s) (hd : d.state = s.diagram.state) :
    Contained world { s with diagram := d } := by
  constructor
  · exact (congrArg State.escaped hd).trans h.escaped
  · exact (congrArg State.offered hd).trans h.offered
  · exact (congrArg State.last hd).trans h.last
  · exact (congrArg State.delivered hd).trans h.delivered
  · exact (congrArg State.notices hd).trans h.notices
  · exact (congrArg (Chained world s.begun ·.world) hd) ▸ h.chained
  · exact h.sound

theorem contained_step [Clock τ] {mark : Mark τ} (h : Contained world s) (hs : Step s mark s') :
    Contained world s' := by
  cases hs with
  | notify hd =>
    obtain ⟨delay, -, hd⟩ := bind_eq_ok hd
    cases hd
    exact h.outside (Debouncer.cancel_keeps s.diagram).2.1
  | cancel => exact h.outside (Debouncer.cancel_keeps s.diagram).2.1
  | pass => exact h.outside rfl
  | fire w hcurrent hring =>
    obtain ⟨hescaped, hoffered, hlast, hdelivered, hnotices, hchained, -⟩ := h
    simp only [computed, begun, hcurrent, Option.toList_none, List.map_nil, List.filterMap_nil,
      List.flatMap_nil, List.append_nil] at hoffered hlast hnotices hchained
    constructor
    · exact hescaped
    · simpa [computed, State.begin, State.noting] using hoffered
    · simpa [computed, State.begin, State.noting] using hlast
    · exact hdelivered
    · simpa [Recompute.computed, State.begin, State.noting] using hnotices
    · exact chained_concat hchained rfl
    · rintro u ⟨rfl⟩
      rfl

theorem filterMap_concat {α β : Type} (f : α → Option β) (as : List α) (a : α) :
    (as ++ [a]).filterMap f = as.filterMap f ++ (f a).toList := by
  rw [List.filterMap_append]
  cases h : f a <;> simp [h]

theorem contained_over {r : Recompute τ σ ρ} {before : State σ ρ} (hescaped : before.escaped = [])
    (hoffered : before.offered = (s.ended ++ [r]).filterMap (·.result?))
    (hlast : before.last = ((s.ended ++ [r]).filterMap (·.result?)).getLast?)
    (hdelivered : before.delivered = s.ended.filterMap (·.taken?))
    (hnotices : before.notices = s.ended.flatMap (·.notices) ++ r.computed.notices)
    (hchained : Chained world (s.ended ++ [r]) before.world) :
    Contained world (s.follow r (before.closing r.worker r.computed.result, none)) := by
  constructor
  · exact hescaped
  · simpa [follow, computed, State.closing] using hoffered
  · simpa [follow, computed, State.closing] using hlast
  · simp only [follow, State.closing, hdelivered, filterMap_concat]
    rfl
  · simp [follow, State.closing, hnotices, Recompute.notices, Recompute.failure?]
  · simpa [follow, begun, State.closing] using hchained
  · nofun

theorem contained_finish {r : Recompute τ σ ρ} {result : Except Failure ρ} (h : Contained world s)
    (hcurrent : s.current = some ⟨r, .computing result⟩) :
    Contained world (s.follow r (s.diagram.state.finish r.worker result)) := by
  obtain ⟨hescaped, hoffered, hlast, hdelivered, hnotices, hchained, hsound⟩ := h
  obtain rfl : result = r.computed.result := hsound ⟨r, .computing result⟩ hcurrent
  simp only [computed, begun, hcurrent, Option.toList_some, List.map_cons, List.map_nil,
    List.filterMap_cons_none, List.filterMap_nil, List.flatMap_cons, List.flatMap_nil,
    List.append_nil] at hoffered hlast hnotices hchained
  have hoffering : (s.diagram.state.offering r.computed.result).offered =
      (s.ended ++ [r]).filterMap (·.result?) := by
    rw [filterMap_concat, ← hoffered]
    rfl
  have hlatest : (s.diagram.state.offering r.computed.result).last =
      ((s.ended ++ [r]).filterMap (·.result?)).getLast? := by
    rw [filterMap_concat, List.getLast?_append, ← hlast]
    change r.result?.or _ = _
    cases r.result? <;> rfl
  -- either the result waits to be handed over, or the computation is over
  obtain ⟨given, pause, hgiven, hpause, hfinish⟩ | hfinish :=
    State.finish_cases r.worker s.diagram.state r.computed.result
  · rw [hfinish]
    constructor
    · exact hescaped
    · simpa [follow, computed] using hoffering
    · simpa [follow, computed] using hlatest
    · exact hdelivered
    · simpa [follow, State.offering] using hnotices
    · exact hchained
    · rintro u ⟨rfl⟩
      exact ⟨given, pause, rfl, hgiven, hpause⟩
  · rw [hfinish]
    exact contained_over hescaped hoffering hlatest hdelivered hnotices hchained

theorem contained_resume {r : Recompute τ σ ρ} {phase : Phase ρ} (h : Contained world s)
    (hcurrent : s.current = some ⟨r, .waiting phase⟩) :
    Contained world (s.follow r (Live.step r.worker phase s.diagram.state)) := by
  obtain ⟨hescaped, hoffered, hlast, hdelivered, hnotices, hchained, hsound⟩ := h
  obtain ⟨given, pause, rfl, hgiven, hpause⟩ := hsound ⟨r, .waiting phase⟩ hcurrent
  simp only [computed, begun, hcurrent, Option.toList_some, List.map_cons, List.map_nil,
    List.filterMap_cons, List.filterMap_nil, List.flatMap_cons, List.flatMap_nil,
    List.append_nil] at hoffered hlast hnotices hchained
  have hresume : Live.step r.worker (.handOver given) s.diagram.state =
      (s.diagram.state.closing r.worker r.computed.result, none) := by
    rw [hgiven]
    exact State.resume_eq hpause s.diagram.state given
  rw [hresume]
  exact contained_over hescaped hoffered hlast hdelivered hnotices hchained

theorem contained_work (h : Contained world s) (hs : Work s s') : Contained world s' := by
  cases hs with
  | finish hcurrent => exact contained_finish h hcurrent
  | resume hcurrent => exact contained_resume h hcurrent

/-- What is known of a live diagram is known in the course of everything that can happen. -/
theorem Course.contained [Clock τ] (h : Course delay world marks s) : Contained world s := by
  induction h with
  | start => exact contained_start delay world
  | step _ hs ih => exact contained_step ih hs
  | work _ hs ih => exact contained_work ih hs

/-! ### The schedule -/

/-- What is left of a live diagram without the results. -/
def plan (d : Diagram τ σ ρ) : Debouncer τ (Phase ρ) Unit :=
  { delay := d.delay, timeline := d.timeline, ready := d.ready, handle := d.handle, started := d.started
    state := () }

/-- What comes of a plan from outside. -/
def replay [Clock τ] (p : Debouncer τ (Phase ρ) Unit) : Mark τ → Debouncer τ (Phase ρ) Unit
  | .notify text => (p.trigger (.compute text)).toOption.getD p
  | .cancel => p.cancel
  | .pass now => { p with timeline := { p.timeline with now } }
  | .fire _ =>
    match p.timeline.next? with
    | none => p
    | some (_, l) => { p with timeline := l, handle := none, started := p.started + 1 }

theorem plan_cancel (d : Diagram τ σ ρ) : plan d.cancel = (plan d).cancel := by
  have hhandle : (plan d).handle = d.handle := rfl
  unfold Debouncer.cancel
  rw [hhandle]
  cases d.handle <;> rfl

theorem plan_notify [Clock τ] (d : Diagram τ σ ρ) (text : Json) :
    (plan d).trigger (.compute text) = plan <$> d.notify text := by
  change (d.delay >>= _) = plan <$> (d.delay >>= _)
  cases d.delay with
  | error fault => rfl
  | ok delay =>
    change Except.ok _ = Except.ok _
    rw [← plan_cancel]
    rfl

theorem plan_step [Clock τ] {mark : Mark τ} (hs : Step s mark s') :
    plan s'.diagram = replay (plan s.diagram) mark := by
  cases hs with
  | notify hd =>
    rw [replay, plan_notify, hd]
    rfl
  | cancel => exact plan_cancel s.diagram
  | pass => rfl
  | fire w hcurrent hring =>
    change _ = match s.diagram.timeline.next? with
      | none => _
      | some (_, l) => _
    rw [hring]
    rfl

theorem plan_follow (s : Serial τ σ ρ) (r : Recompute τ σ ρ) (done : State σ ρ × Option (τ × Phase ρ)) :
    plan (s.follow r done).diagram = plan s.diagram ∧ (s.follow r done).begun = s.ended ++ [r] := by
  obtain ⟨state, later⟩ := done
  cases later with
  | none => exact ⟨rfl, List.append_nil _⟩
  | some later => exact ⟨rfl, rfl⟩

/-- A phase of a computation changes nothing about the schedule, and no computation begins. -/
theorem plan_work (hs : Work s s') : plan s'.diagram = plan s.diagram ∧ s'.begun = s.begun := by
  cases hs with
  | @finish r result hcurrent | @resume r phase hcurrent =>
    obtain ⟨hplan, hbegun⟩ := plan_follow s r _
    refine ⟨hplan, hbegun.trans ?_⟩
    rw [begun, hcurrent]
    rfl

theorem texts_step [Clock τ] {mark : Mark τ} (hs : Step s mark s') :
    s'.begun.map (·.text) = s.begun.map (·.text) ++ texts [mark] := by
  cases hs with
  | fire w hcurrent hring =>
    rw [begun, begun, hcurrent, Option.toList_none, List.map_nil, List.append_nil, List.map_append]
    rfl
  | _ => exact (List.append_nil _).symm

/-- The schedule and the texts that are computed from hang only on what is done from outside. -/
theorem Course.plan_eq [Clock τ] (h : Course delay world marks s) :
    plan s.diagram = marks.foldl replay (plan (Diagram.start (.ok delay) world : Diagram τ σ ρ)) ∧
      s.begun.map (·.text) = texts marks := by
  induction h with
  | start => exact ⟨rfl, rfl⟩
  | step _ hs ih =>
    obtain ⟨hplan, htexts⟩ := ih
    rw [List.foldl_concat, plan_step hs, hplan, texts_step hs, htexts]
    exact ⟨rfl, (List.filterMap_append ..).symm⟩
  | work _ hs ih =>
    obtain ⟨hplan, hbegun⟩ := plan_work hs
    rw [hplan, hbegun]
    exact ih

/-- The two workers leave the world alike, however the computations of their results end. -/
def LeaveAlike (w w' : Worker τ σ ρ) : Prop :=
  ∀ world text, (w'.compute world text).world = (w.compute world text).world

/-- Where worlds are left alike, computations from the same texts begin in the same worlds. -/
theorem chained_alike {rs rs' : List (Recompute τ σ ρ)} {final final' : σ}
    (hworkers : List.Forall₂ (fun r r' => LeaveAlike r.worker r'.worker) rs rs')
    (htexts : rs'.map (·.text) = rs.map (·.text)) (h : Chained world rs final) (h' : Chained world rs' final') :
    List.Forall₂ (fun r r' => r'.text = r.text ∧ r'.world = r.world) rs rs' := by
  induction hworkers generalizing world with
  | nil => exact .nil
  | @cons r r' rs rs' halike _ ih =>
    obtain ⟨htext, hrest⟩ : r'.text = r.text ∧ rs'.map (·.text) = rs.map (·.text) := List.cons.inj htexts
    obtain ⟨hworld, h⟩ := h
    obtain ⟨hworld', h'⟩ := h'
    have hsame : r'.world = r.world := hworld'.trans hworld.symm
    have hleft : r'.computed.world = r.computed.world := by
      rw [Recompute.computed, Recompute.computed, htext, hsame]
      exact halike r.world r.text
    rw [hleft] at h'
    exact .cons ⟨htext, hsame⟩ (ih hrest h h')

/-- Failures of live results stay contained. None leaves its computation, each that ends a computation is noticed
once, every result that is computed is offered once and in order, and the last result is that of the last
computation that succeeded. The schedule and the texts that are computed from hang only on what is done from
outside, and so does the world that each computation begins in, as far as the workers leave the world alike
whether or not they fail. -/
theorem failures_stay_contained [Clock τ] (h : Course delay world marks s) :
    s.diagram.state.escaped = [] ∧
    s.diagram.state.notices =
      s.ended.flatMap (·.notices) ++ s.current.toList.flatMap (·.recompute.computed.notices) ∧
    s.diagram.state.offered = s.computed.filterMap (·.result?) ∧
    s.diagram.state.last = (s.computed.filterMap (·.result?)).getLast? ∧
    s.diagram.state.delivered = s.ended.filterMap (·.taken?) ∧
    s.begun.map (·.text) = texts marks ∧
    ∀ s', Course delay world marks s' →
      plan s'.diagram = plan s.diagram ∧
      (List.Forall₂ (fun r r' => LeaveAlike r.worker r'.worker) s.begun s'.begun →
        List.Forall₂ (fun r r' => r'.text = r.text ∧ r'.world = r.world) s.begun s'.begun) := by
  obtain ⟨hescaped, hoffered, hlast, hdelivered, hnotices, hchained, -⟩ := h.contained
  obtain ⟨hplan, htexts⟩ := h.plan_eq
  refine ⟨hescaped, hnotices, hoffered, hlast, hdelivered, htexts, ?_⟩
  intro s' h'
  obtain ⟨hplan', htexts'⟩ := h'.plan_eq
  refine ⟨hplan'.trans hplan.symm, ?_⟩
  intro hworkers
  exact chained_alike hworkers (htexts'.trans htexts.symm) hchained h'.contained.chained

/-! ### A course with failures -/

theorem Course.resume [Clock τ] {r : Recompute τ σ ρ} {phase : Phase ρ} (h : Course delay world marks s)
    (hcurrent : s.current = some ⟨r, .waiting phase⟩) :
    ∃ s', Course delay world marks s' ∧ plan s'.diagram = plan s.diagram ∧ s'.ended = s.ended ++ [r] ∧
      s'.current = none := by
  obtain ⟨given, pause, rfl, -, hpause⟩ := h.contained.sound ⟨r, .waiting phase⟩ hcurrent
  have hresumed := h.work (.resume hcurrent)
  have hends : Live.step r.worker (.handOver given) s.diagram.state = _ :=
    State.resume_eq hpause s.diagram.state given
  rw [hends] at hresumed
  exact ⟨_, hresumed, rfl, rfl, rfl⟩

/-- A computation under way can come to its end, whatever it comes to. -/
theorem Course.finish [Clock τ] {r : Recompute τ σ ρ} {result : Except Failure ρ}
    (h : Course delay world marks s) (hcurrent : s.current = some ⟨r, .computing result⟩) :
    ∃ s', Course delay world marks s' ∧ plan s'.diagram = plan s.diagram ∧ s'.ended = s.ended ++ [r] ∧
      s'.current = none := by
  have hfinished := h.work (.finish hcurrent)
  obtain ⟨given, pause, -, -, hend⟩ | hend := State.finish_cases r.worker s.diagram.state result
  · rw [hend] at hfinished
    exact hfinished.resume rfl
  · rw [hend] at hfinished
    exact ⟨_, hfinished, rfl, rfl, rfl⟩

section

variable [AddCommGroup τ] [LinearOrder τ] [IsOrderedAddMonoid τ]

/-- A live diagram at rest, where nothing is pending or under way. -/
structure Rests (delay : τ) (s : Serial τ σ ρ) : Prop where
  delay : s.diagram.delay = .ok delay
  waiting : Waiting s.diagram none
  current : s.current = none

omit [IsOrderedAddMonoid τ] in
theorem rests_start (delay : τ) (world : σ) :
    Rests delay ({ diagram := Diagram.start (.ok delay) world } : Serial τ σ ρ) :=
  ⟨rfl, waiting_start _ _, rfl⟩

/-- Whatever came before, a text that is taken note of can be computed from, to the end. -/
theorem Course.recompute (hd : 0 ≤ delay) (h : Course delay world marks s) (hs : Rests delay s)
    (w : Worker τ σ ρ) (text : Json) :
    ∃ s', Course delay world (marks ++ [.notify text] ++ [.fire text]) s' ∧ Rests delay s' ∧
      s'.ended = s.ended ++ [⟨w, text, s.diagram.state.world⟩] := by
  have hnotify : s.diagram.notify text = .ok _ := Debouncer.trigger_eq hs.delay _
  obtain ⟨hdelay, hstate, -⟩ := Debouncer.cancel_keeps s.diagram
  have hpending := waiting_armed (waiting_cancel hs.waiting) hd text
  obtain ⟨l, hring⟩ := exists_fire hpending
  obtain ⟨-, hin, hnil⟩ := waiting_fire hpending hring
  have hfired := (h.step (.notify hnotify)).step (.fire w hs.current hring)
  obtain ⟨s', hfinished, hplan, hover, hcurrent⟩ := hfired.finish rfl
  refine ⟨s', hfinished, ⟨?_, ⟨?_, ?_, ?_⟩, hcurrent⟩, ?_⟩
  · exact (congrArg Debouncer.delay hplan).trans (hdelay.trans hs.delay)
  · rw [show s'.diagram.timeline = l from congrArg Debouncer.timeline hplan]
    exact hin
  · rw [show s'.diagram.timeline = l from congrArg Debouncer.timeline hplan, hnil]
    rfl
  · rw [show s'.diagram.timeline = l from congrArg Debouncer.timeline hplan, hnil,
      show s'.diagram.handle = none from congrArg Debouncer.handle hplan]
    rfl
  · have hworld : (Debouncer.cancel s.diagram).state.world = s.diagram.state.world := by rw [hstate]
    rw [hover, ← hworld]
    rfl

end

/-- A worker that counts its computations and takes what they come to, after a pause if it is to wait. -/
def counting (result : Json → Except Failure Json) (taken : Except Failure Unit) (waits : Bool) :
    Worker ℤ ℕ Json where
  compute n text := ⟨n + 1, [], result text⟩
  handOver _ := taken
  delivering := if waits then some (.ok 2) else none

def broken : Worker ℤ ℕ Json := counting (fun _ => .error ⟨"RuntimeError", "boom"⟩) (.ok ()) false

def clumsy : Worker ℤ ℕ Json := counting .ok (.error ⟨"OSError", "disk full"⟩) true

def careful : Worker ℤ ℕ Json := counting .ok (.ok ()) false

/-- Three texts, one after the other. -/
def threeTexts : List (Mark ℤ) :=
  [.notify (.text "A"), .fire (.text "A"), .notify (.text "B"), .fire (.text "B"), .notify (.text "C"),
    .fire (.text "C")]

theorem course_of_three (a b c : Worker ℤ ℕ Json) :
    ∃ s m n, Course 1 0 threeTexts s ∧
      s.ended = [⟨a, .text "A", 0⟩, ⟨b, .text "B", m⟩, ⟨c, .text "C", n⟩] ∧ s.current = none := by
  have hd : (0 : ℤ) ≤ 1 := by decide
  obtain ⟨s₁, h₁, r₁, o₁⟩ := Course.recompute hd .start (rests_start 1 0) a (.text "A")
  obtain ⟨s₂, h₂, r₂, o₂⟩ := h₁.recompute hd r₁ b (.text "B")
  obtain ⟨s₃, h₃, r₃, o₃⟩ := h₂.recompute hd r₂ c (.text "C")
  exact ⟨s₃, s₁.diagram.state.world, s₂.diagram.state.world, h₃, by rw [o₃, o₂, o₁]; rfl, r₃.current⟩

theorem third_text_is_computed_all_the_same :
    ∃ s s', Course 1 0 threeTexts s ∧ Course 1 0 threeTexts s' ∧
      s.begun.map (·.worker) = [broken, clumsy, careful] ∧
      s'.begun.map (·.worker) = [careful, careful, careful] ∧
      s.diagram.state.escaped = [] ∧
      s.diagram.state.notices =
        [.recomputeFailed "RuntimeError" "boom", .recomputeFailed "OSError" "disk full"] ∧
      s.diagram.state.offered = [.text "B", .text "C"] ∧ s.diagram.state.last = some (.text "C") ∧
      s.diagram.state.delivered = [.text "C"] ∧ plan s'.diagram = plan s.diagram ∧
      List.Forall₂ (fun r r' => r'.text = r.text ∧ r'.world = r.world) s.begun s'.begun := by
  obtain ⟨s, m, n, h, hover, hcurrent⟩ := course_of_three broken clumsy careful
  obtain ⟨s', m', n', h', hover', hcurrent'⟩ := course_of_three careful careful careful
  obtain ⟨hescaped, hnotices, hoffered, hlast, hdelivered, -, hsame⟩ := failures_stay_contained h
  obtain ⟨hplan, halike⟩ := hsame s' h'
  rw [hover, hcurrent] at hnotices
  rw [computed, hover, hcurrent] at hoffered hlast
  rw [hover] at hdelivered
  have hbegun : s.begun = [⟨broken, .text "A", 0⟩, ⟨clumsy, .text "B", m⟩, ⟨careful, .text "C", n⟩] := by
    rw [begun, hover, hcurrent]
    rfl
  have hbegun' : s'.begun = [⟨careful, .text "A", 0⟩, ⟨careful, .text "B", m'⟩, ⟨careful, .text "C", n'⟩] := by
    rw [begun, hover', hcurrent']
    rfl
  have hworkers : List.Forall₂ (fun r r' => LeaveAlike r.worker r'.worker) s.begun s'.begun := by
    rw [hbegun, hbegun']
    exact .cons (fun _ _ => rfl) (.cons (fun _ _ => rfl) (.cons (fun _ _ => rfl) .nil))
  exact ⟨s, s', h, h', by rw [hbegun]; rfl, by rw [hbegun']; rfl, hescaped, hnotices, hoffered, hlast,
    hdelivered, hplan, halike hworkers⟩

end Serial
end NodeLink.Live
