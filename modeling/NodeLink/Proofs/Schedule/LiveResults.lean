import NodeLink.Schedule.Live
import NodeLink.Proofs.Schedule.Timers
import NodeLink.Proofs.Outcome
import Mathlib.Algebra.Order.Group.Int

/-!
# In which order live results come

A result that is being computed may have to wait, for the icons of its picture, while further texts are taken
note of and further results begin to be computed. Each ends when it can. Results are handed over in the order
in which they end, which need not be the one in which their texts came.
-/

namespace NodeLink.Live

open Timeline (live)

variable {τ σ ρ : Type}

/-- A live diagram, and the results that are being computed, with their texts, the oldest first. -/
structure Session (τ σ ρ : Type) where
  diagram : Diagram τ σ ρ
  flights : List (Json × ρ) := []

/-- What happens in a session: a text is taken note of, its timer rings and its result begins to be computed,
or the computation at a place among those under way ends and its result is handed over. -/
inductive Event (ρ : Type) where
  | notify (text : Json)
  | fire (text : Json) (result : ρ)
  | finish (place : Nat) (text : Json) (result : ρ)

/-- The texts that were taken note of. -/
def notified (trace : List (Event ρ)) : List Json :=
  trace.filterMap fun
    | .notify text => some text
    | .fire .. | .finish .. => none

/-- The texts whose timers have rung, with the results that began to be computed. -/
def fired (trace : List (Event ρ)) : List (Json × ρ) :=
  trace.filterMap fun
    | .fire text result => some (text, result)
    | .notify _ | .finish .. => none

/-- The texts whose results have been handed over, with these. -/
def received (trace : List (Event ρ)) : List (Json × ρ) :=
  trace.filterMap fun
    | .finish _ text result => some (text, result)
    | .notify _ | .fire .. => none

/-- Computations end in the order in which they began. -/
def FirstEnded (trace : List (Event ρ)) : Prop :=
  ∀ place text result, Event.finish place text result ∈ trace → place = 0

variable [AddCommGroup τ] [LinearOrder τ]

/-- A text is taken note of at any time; time goes on to a timer that rings, and the computation that it
starts succeeds; a computation under way may end at any time. -/
inductive Step (w : Worker τ σ ρ) : Session τ σ ρ → Event ρ → Session τ σ ρ → Prop
  | notify {s : Session τ σ ρ} {text : Json} {d : Diagram τ σ ρ} (hd : s.diagram.notify text = .ok d) :
      Step w s (.notify text) { s with diagram := d }
  | fire {s : Session τ σ ρ} {text : Json} {result : ρ} {l : Timeline τ (Alarm (Phase ρ))}
      (hring : s.diagram.timeline.next? = some ([.start (.compute text)], l))
      (hresult : (s.diagram.state.begin w text).2 = .ok result) :
      Step w s (.fire text result)
        { diagram :=
            { Debouncer.perform (routine w) { s.diagram with timeline := l } (.ring (.start (.compute text))) with
              ready := []
              state := (s.diagram.state.begin w text).1 }
          flights := s.flights ++ [(text, result)] }
  | finish {s : Session τ σ ρ} {before after : List (Json × ρ)} {text : Json} {result : ρ}
      (hflight : s.flights = before ++ (text, result) :: after) :
      Step w s (.finish before.length text result)
        { diagram := { s.diagram with state := (s.diagram.state.finish w (.ok result)).1 }
          flights := before ++ after }

/-- What happens from the start of a live diagram on. -/
inductive Run (w : Worker τ σ ρ) (delay : τ) (world : σ) : List (Event ρ) → Session τ σ ρ → Prop
  | start : Run w delay world [] ⟨Diagram.start (.ok delay) world, []⟩
  | step {trace : List (Event ρ)} {s s' : Session τ σ ρ} {event : Event ρ} (h : Run w delay world trace s)
      (hs : Step w s event s') : Run w delay world (trace ++ [event]) s'

/-- The timeline holds the timer of the text that is pending, if there is one, and no other. -/
structure Waiting (d : Diagram τ σ ρ) (pending : Option Json) : Prop where
  inTime : d.timeline.InTime
  events : (live d.timeline.timers).map (·.event) = pending.toList.map fun text => .start (.compute text)
  handle : (live d.timeline.timers).map (·.id) = d.handle.toList

variable {w : Worker τ σ ρ} {delay : τ} {world : σ} {trace : List (Event ρ)} {s s' : Session τ σ ρ}
  {event : Event ρ} {d : Diagram τ σ ρ} {pending : Option Json} {text : Json}

theorem Waiting.pending_eq (h : Waiting d pending) : d.pending = pending.isSome := by
  have hlength := congrArg List.length h.events
  have hhandle := congrArg List.length h.handle
  rw [List.length_map, List.length_map] at hlength
  rw [List.length_map, hlength] at hhandle
  unfold Debouncer.pending
  cases pending <;> cases hd : d.handle <;> rw [hd] at hhandle <;> first | rfl | cases hhandle

theorem waiting_start (delay : Except Fault τ) (world : σ) :
    Waiting (Diagram.start delay world : Diagram τ σ ρ) none := by
  refine ⟨⟨fun i _ _ => Heap.fits_of_size_le (Nat.zero_le _), ?_, ?_⟩, rfl, rfl⟩
  · simp [Diagram.start]
  · simp [Diagram.start]

theorem waiting_cancel (h : Waiting d pending) : Waiting d.cancel none := by
  have hhandle := h.handle
  unfold Debouncer.cancel
  cases hid : d.handle with
  | none =>
    rw [hid] at hhandle
    have hnil : live d.timeline.timers = [] := List.map_eq_nil_iff.mp hhandle
    exact ⟨h.inTime, by rw [hnil]; rfl, by rw [hnil, hid]; rfl⟩
  | some id =>
    rw [hid] at hhandle
    have hnil : live (d.timeline.cancel id).timers = [] := by
      rw [Timeline.live_cancel]
      refine List.filter_eq_nil_iff.mpr fun t ht => ?_
      have hmem : t.id ∈ (live d.timeline.timers).map (·.id) := List.mem_map_of_mem ht
      rw [hhandle] at hmem
      simpa using hmem
    exact ⟨Timeline.inTime_cancel h.inTime id, by rw [hnil]; rfl, by rw [hnil]; rfl⟩

theorem waiting_armed [IsOrderedAddMonoid τ] (h : Waiting d none) (hd : 0 ≤ delay) (text : Json) :
    Waiting (d.armed delay (.compute text)) (some text) := by
  have hlive := Debouncer.live_armed d delay (Phase.compute text)
  have hnil : live d.timeline.timers = [] := List.map_eq_nil_iff.mp h.events
  rw [hnil] at hlive
  have hone := List.perm_singleton.mp hlive
  exact ⟨Timeline.inTime_set h.inTime hd _, by rw [hone]; rfl, by rw [hone]; rfl⟩

/-- The timer that rings is that of the pending text. -/
theorem waiting_fire {l : Timeline τ (Alarm (Phase ρ))} {text : Json} (h : Waiting d pending)
    (hn : d.timeline.next? = some ([.start (.compute text)], l)) :
    pending = some text ∧ l.InTime ∧ live l.timers = [] := by
  obtain ⟨rung, hfound, -, hrings, -⟩ := Timeline.rings_next? h.inTime hn
  have hperm := hrings.perm.map (·.event)
  rw [List.map_append, ← hfound, h.events] at hperm
  cases pending with
  | none => exact absurd hperm.length_eq (by simp)
  | some text' =>
    have hlength := hperm.length_eq
    have hnil : live l.timers = [] := by simpa using hlength
    rw [hnil] at hperm
    have htext := List.singleton_perm_singleton.mp hperm
    cases htext
    exact ⟨rfl, hrings.inTime, hnil⟩

theorem exists_fire (h : Waiting d (some text)) :
    ∃ l, d.timeline.next? = some ([.start (.compute text)], l) := by
  cases hn : d.timeline.next? with
  | none =>
    have hevents := h.events
    rw [Timeline.live_eq_nil_of_next? h.inTime hn] at hevents
    cases hevents
  | some found =>
    obtain ⟨found, l⟩ := found
    obtain ⟨rung, hfound, hne, hrings, -⟩ := Timeline.rings_next? h.inTime hn
    have hperm := hrings.perm.map (·.event)
    rw [List.map_append, ← hfound, h.events] at hperm
    cases found with
    | nil => exact absurd (List.map_eq_nil_iff.mp hfound.symm) hne
    | cons alarm alarms =>
      have hlength := hperm.length_eq
      obtain ⟨rfl, hnil⟩ : alarms = [] ∧ live l.timers = [] := by simpa using hlength
      rw [hnil] at hperm
      have halarm := List.singleton_perm_singleton.mp hperm
      exact ⟨l, by rw [halarm]⟩

/-! ### What a session keeps -/

/-- Every result that is handed over is taken. -/
def Worker.Plain (w : Worker τ σ ρ) : Prop := w.delivering = none ∧ ∀ result, w.handOver result = .ok ()

/-- What is known of a session from what has happened in it. -/
structure Recorded (w : Worker τ σ ρ) (delay : τ) (trace : List (Event ρ)) (s : Session τ σ ρ)
    (pending : Option Json) : Prop where
  delay : s.diagram.delay = .ok delay
  waiting : Waiting s.diagram pending
  order : ((fired trace).map (·.1) ++ pending.toList).Sublist (notified trace)
  latest : ((fired trace).map (·.1) ++ pending.toList).getLast? = (notified trace).getLast?
  computed : ∀ flight ∈ fired trace, ∃ world, (w.compute world flight.1).result = .ok flight.2
  once : (received trace ++ s.flights).Perm (fired trace)
  last : s.diagram.state.last = (received trace).getLast?.map (·.2)
  delivered : w.Plain → s.diagram.state.delivered = (received trace).map (·.2)
  inTurn : FirstEnded trace → received trace ++ s.flights = fired trace

theorem recorded_start (w : Worker τ σ ρ) (delay : τ) (world : σ) :
    Recorded w delay [] ⟨Diagram.start (.ok delay) world, []⟩ none where
  delay := rfl
  waiting := waiting_start _ _
  order := .refl _
  latest := rfl
  computed := nofun
  once := .refl _
  last := rfl
  delivered _ := rfl
  inTurn _ := rfl

section

variable (trace : List (Event ρ)) (place : Nat) (text : Json) (result : ρ)

theorem notify_adds :
    notified (trace ++ [.notify text]) = notified trace ++ [text] ∧
      fired (trace ++ [.notify text]) = fired trace ∧ received (trace ++ [.notify text]) = received trace := by
  simp [notified, fired, received]

theorem fire_adds :
    notified (trace ++ [.fire text result]) = notified trace ∧
      fired (trace ++ [.fire text result]) = fired trace ++ [(text, result)] ∧
      received (trace ++ [.fire text result]) = received trace := by
  simp [notified, fired, received]

theorem finish_adds :
    notified (trace ++ [.finish place text result]) = notified trace ∧
      fired (trace ++ [.finish place text result]) = fired trace ∧
      received (trace ++ [.finish place text result]) = received trace ++ [(text, result)] := by
  simp [notified, fired, received]

end

theorem FirstEnded.before (h : FirstEnded (trace ++ [event])) : FirstEnded trace :=
  fun place text result hm => h place text result (List.mem_append_left _ hm)

theorem recorded_notify [IsOrderedAddMonoid τ] {d : Diagram τ σ ρ} (hd : 0 ≤ delay)
    (h : Recorded w delay trace s pending) (hn : s.diagram.notify text = .ok d) :
    Recorded w delay (trace ++ [.notify text]) { s with diagram := d } (some text) := by
  rw [Diagram.notify, Debouncer.trigger_eq h.delay] at hn
  cases hn
  obtain ⟨hdelay, hstate, -⟩ := Debouncer.cancel_keeps s.diagram
  have hwait := waiting_armed (waiting_cancel h.waiting) hd text
  have hstate' : (Debouncer.armed (Debouncer.cancel s.diagram) delay (Phase.compute text)).state =
      s.diagram.state := hstate
  obtain ⟨hnotified, hfired, hreceived⟩ := notify_adds trace text
  constructor
  · exact hdelay.trans h.delay
  · exact hwait
  · rw [hfired, hnotified]
    exact ((List.sublist_append_left _ _).trans h.order).append (.refl _)
  · rw [hfired, hnotified]
    exact (List.getLast?_concat ..).trans (List.getLast?_concat ..).symm
  · rw [hfired]
    exact h.computed
  · rw [hreceived, hfired]
    exact h.once
  · rw [hreceived]
    exact (congrArg State.last hstate').trans h.last
  · intro hp
    rw [hreceived]
    exact (congrArg State.delivered hstate').trans (h.delivered hp)
  · intro hf
    rw [hreceived, hfired]
    exact h.inTurn hf.before

theorem recorded_fire {l : Timeline τ (Alarm (Phase ρ))} {result : ρ} (h : Recorded w delay trace s pending)
    (hring : s.diagram.timeline.next? = some ([.start (.compute text)], l))
    (hresult : (s.diagram.state.begin w text).2 = .ok result) :
    Recorded w delay (trace ++ [.fire text result])
      { diagram :=
          { Debouncer.perform (routine w) { s.diagram with timeline := l } (.ring (.start (.compute text))) with
            ready := []
            state := (s.diagram.state.begin w text).1 }
        flights := s.flights ++ [(text, result)] } none := by
  obtain ⟨rfl, hin, hnil⟩ := waiting_fire h.waiting hring
  have htexts : ((fired trace ++ [(text, result)]).map (·.1)) ++ (none : Option Json).toList =
      (fired trace).map (·.1) ++ (some text).toList := by
    rw [List.map_append]
    exact List.append_nil _
  obtain ⟨hnotified, hfired, hreceived⟩ := fire_adds trace text result
  constructor
  · exact h.delay
  · refine ⟨hin, ?_, ?_⟩ <;>
    · dsimp only [Debouncer.perform]
      rw [hnil]
      rfl
  · rw [hfired, hnotified, htexts]
    exact h.order
  · rw [hfired, hnotified, htexts]
    exact h.latest
  · rw [hfired]
    intro flight hm
    obtain hm | hm := List.mem_append.mp hm
    · exact h.computed flight hm
    · rw [List.mem_singleton.mp hm]
      exact ⟨s.diagram.state.world, hresult⟩
  · rw [hreceived, hfired, ← List.append_assoc]
    exact h.once.append_right _
  · rw [hreceived]
    exact h.last
  · intro hp
    rw [hreceived]
    exact h.delivered hp
  · intro hf
    rw [hreceived, hfired, ← List.append_assoc, h.inTurn hf.before]

omit [AddCommGroup τ] [LinearOrder τ] in
theorem last_finish (w : Worker τ σ ρ) (s : State σ ρ) (result : ρ) :
    (s.finish w (.ok result)).1.last = some result := by
  simp only [State.finish, State.take, State.handOver]
  cases w.delivering with
  | none => cases w.handOver result <;> rfl
  | some delivering => cases delivering <;> rfl

omit [AddCommGroup τ] [LinearOrder τ] in
theorem delivered_finish (h : w.Plain) (s : State σ ρ) (result : ρ) :
    (s.finish w (.ok result)).1.delivered = s.delivered ++ [result] := by
  simp only [State.finish, State.take, State.handOver, h.1, h.2]
  rfl

theorem recorded_finish {before after : List (Json × ρ)} {result : ρ} (h : Recorded w delay trace s pending)
    (hflight : s.flights = before ++ (text, result) :: after) :
    Recorded w delay (trace ++ [.finish before.length text result])
      { diagram := { s.diagram with state := (s.diagram.state.finish w (.ok result)).1 }
        flights := before ++ after } pending := by
  have honce : (received trace ++ [(text, result)] ++ (before ++ after)).Perm (fired trace) := by
    have hall := h.once
    rw [hflight] at hall
    have hmiddle : ((text, result) :: (before ++ after)).Perm (before ++ (text, result) :: after) :=
      List.perm_middle.symm
    rw [List.append_assoc]
    exact (hmiddle.append_left _).trans hall
  obtain ⟨hnotified, hfired, hreceived⟩ := finish_adds trace before.length text result
  constructor
  · exact h.delay
  · exact ⟨h.waiting.inTime, h.waiting.events, h.waiting.handle⟩
  · rw [hfired, hnotified]
    exact h.order
  · rw [hfired, hnotified]
    exact h.latest
  · rw [hfired]
    exact h.computed
  · rw [hreceived, hfired]
    exact honce
  · rw [hreceived, List.getLast?_concat]
    exact last_finish w s.diagram.state result
  · intro hp
    rw [hreceived, List.map_append, ← h.delivered hp]
    exact delivered_finish hp s.diagram.state result
  · intro hf
    have hzero := hf _ _ _ (List.mem_append_right _ List.mem_cons_self)
    have hturn := h.inTurn hf.before
    rw [hflight, List.length_eq_zero_iff.mp hzero] at hturn
    rw [hreceived, hfired, List.length_eq_zero_iff.mp hzero, List.append_assoc]
    exact hturn

/-- What is known of a session is known of it in the course of every run. -/
theorem Run.recorded [IsOrderedAddMonoid τ] (hd : 0 ≤ delay) (h : Run w delay world trace s) :
    ∃ pending, Recorded w delay trace s pending := by
  induction h with
  | start => exact ⟨none, recorded_start w delay world⟩
  | step _ hs ih =>
    obtain ⟨pending, hr⟩ := ih
    cases hs with
    | notify hn => exact ⟨_, recorded_notify hd hr hn⟩
    | fire hring hresult => exact ⟨_, recorded_fire hr hring hresult⟩
    | finish hflight => exact ⟨_, recorded_finish hr hflight⟩

/-- Texts whose timers ring do so in the order in which they came, and results are handed over once each, in
the order in which their computations end; the last one is the one handed over last. When nothing is pending
or under way, the results of all of these texts have been handed over, that of the last text among them. If
computations end in the order in which they began, results come in the order of their texts, and the last
result is then that of the last text. -/
theorem results_come_as_computations_end [IsOrderedAddMonoid τ] (hd : 0 ≤ delay)
    (h : Run w delay world trace s) :
    ((fired trace).map (·.1)).Sublist (notified trace) ∧
    (∀ flight ∈ fired trace, ∃ world, (w.compute world flight.1).result = .ok flight.2) ∧
    (received trace ++ s.flights).Perm (fired trace) ∧
    (w.Plain → s.diagram.state.delivered = (received trace).map (·.2)) ∧
    s.diagram.state.last = (received trace).getLast?.map (·.2) ∧
    (s.diagram.pending = false → ((fired trace).map (·.1)).getLast? = (notified trace).getLast?) ∧
    (FirstEnded trace → received trace <+: fired trace) ∧
    (FirstEnded trace → s.flights = [] → s.diagram.state.last = (fired trace).getLast?.map (·.2)) := by
  obtain ⟨pending, hr⟩ := h.recorded hd
  have horder := (List.sublist_append_left _ _).trans hr.order
  refine ⟨horder, hr.computed, hr.once, hr.delivered, hr.last, ?_, ?_, ?_⟩
  · intro hp
    rw [hr.waiting.pending_eq] at hp
    have hlatest := hr.latest
    rw [Option.not_isSome_iff_eq_none.mp (Bool.eq_false_iff.mp hp)] at hlatest
    rwa [Option.toList_none, List.append_nil] at hlatest
  · exact fun hf => ⟨s.flights, hr.inTurn hf⟩
  · intro hf hnone
    have hturn := hr.inTurn hf
    rw [hnone, List.append_nil] at hturn
    rw [hr.last, hturn]

/-! ### Two computations at a time -/

theorem Run.notify [IsOrderedAddMonoid τ] (hd : 0 ≤ delay) (h : Run w delay world trace s)
    (hr : Recorded w delay trace s pending) (text : Json) :
    ∃ s', Run w delay world (trace ++ [.notify text]) s' ∧
      Recorded w delay (trace ++ [.notify text]) s' (some text) ∧ s'.flights = s.flights := by
  have hn : s.diagram.notify text = .ok _ := Debouncer.trigger_eq hr.delay _
  exact ⟨_, h.step (.notify hn), recorded_notify hd hr hn, rfl⟩

theorem Run.fire {result : ρ} (h : Run w delay world trace s) (hr : Recorded w delay trace s (some text))
    (hresult : ∀ world, (w.compute world text).result = .ok result) :
    ∃ s', Run w delay world (trace ++ [.fire text result]) s' ∧
      Recorded w delay (trace ++ [.fire text result]) s' none ∧ s'.flights = s.flights ++ [(text, result)] := by
  obtain ⟨l, hring⟩ := exists_fire hr.waiting
  have hbegun : (s.diagram.state.begin w text).2 = .ok result := hresult _
  exact ⟨_, h.step (.fire hring hbegun), recorded_fire hr hring hbegun, rfl⟩

theorem Run.finish {before after : List (Json × ρ)} {result : ρ} (h : Run w delay world trace s)
    (hr : Recorded w delay trace s pending) (hflight : s.flights = before ++ (text, result) :: after) :
    ∃ s', Run w delay world (trace ++ [.finish before.length text result]) s' ∧
      Recorded w delay (trace ++ [.finish before.length text result]) s' pending ∧
      s'.flights = before ++ after :=
  ⟨_, h.step (.finish hflight), recorded_finish hr hflight, rfl⟩

/-- Every text is its own result, and is handed over at once. -/
def echo : Worker ℤ Unit Json where
  compute _ text := ⟨(), [], .ok text⟩
  handOver _ := .ok ()
  delivering := none

/-- Two texts of which the second one is noted while the first one's result is being computed. -/
theorem two_under_way (a b : Json) :
    ∃ s, Run echo 1 () [.notify a, .fire a a, .notify b, .fire b b] s ∧
      Recorded echo 1 [.notify a, .fire a a, .notify b, .fire b b] s none ∧ s.flights = [(a, a), (b, b)] := by
  have hd : (0 : ℤ) ≤ 1 := by decide
  obtain ⟨s₁, h₁, r₁, f₁⟩ := Run.notify hd .start (recorded_start echo 1 ()) a
  obtain ⟨s₂, h₂, r₂, f₂⟩ := h₁.fire r₁ fun _ => rfl
  obtain ⟨s₃, h₃, r₃, f₃⟩ := h₂.notify hd r₂ b
  obtain ⟨s₄, h₄, r₄, f₄⟩ := h₃.fire r₃ fun _ => rfl
  exact ⟨s₄, h₄, r₄, by rw [f₄, f₃, f₂, f₁]; rfl⟩

theorem first_result_comes_first :
    ∃ trace s, Run echo 1 () trace s ∧ notified trace = [.text "A", .text "B"] ∧
      s.diagram.state.delivered = [.text "A", .text "B"] ∧ s.diagram.state.last = some (.text "B") := by
  obtain ⟨s₁, h₁, r₁, f₁⟩ := two_under_way (.text "A") (.text "B")
  have hfirst : s₁.flights = [] ++ (.text "A", .text "A") :: [(.text "B", .text "B")] := f₁
  obtain ⟨s₂, h₂, r₂, f₂⟩ := h₁.finish r₁ hfirst
  have hsecond : s₂.flights = [] ++ (.text "B", .text "B") :: [] := f₂
  obtain ⟨s₃, h₃, -, f₃⟩ := h₂.finish r₂ hsecond
  obtain ⟨-, -, -, hdelivered, -, -, -, hlast⟩ := results_come_as_computations_end (by decide : (0 : ℤ) ≤ 1) h₃
  have hturn : FirstEnded ([.notify (.text "A"), .fire (.text "A") (.text "A"), .notify (.text "B"),
      .fire (.text "B") (.text "B")] ++ [.finish 0 (.text "A") (.text "A")] ++
      [.finish 0 (.text "B") (.text "B")] : List (Event Json)) := by
    intro place text result hm
    simp only [List.mem_append, List.mem_cons, List.not_mem_nil, or_false, reduceCtorEq, false_or,
      Event.finish.injEq] at hm
    obtain ⟨hp, -⟩ | ⟨hp, -⟩ := hm <;> exact hp
  exact ⟨_, s₃, h₃, rfl, hdelivered ⟨rfl, fun _ => rfl⟩, hlast hturn f₃⟩

theorem older_result_comes_last :
    ∃ trace s, Run echo 1 () trace s ∧ notified trace = [.text "A", .text "B"] ∧
      (fired trace).map (·.1) = [.text "A", .text "B"] ∧ s.diagram.pending = false ∧ s.flights = [] ∧
      s.diagram.state.delivered = [.text "B", .text "A"] ∧ s.diagram.state.last = some (.text "A") := by
  obtain ⟨s₁, h₁, r₁, f₁⟩ := two_under_way (.text "A") (.text "B")
  have hsecond : s₁.flights = [(.text "A", .text "A")] ++ (.text "B", .text "B") :: [] := f₁
  obtain ⟨s₂, h₂, r₂, f₂⟩ := h₁.finish r₁ hsecond
  have hfirst : s₂.flights = [] ++ (.text "A", .text "A") :: [] := f₂
  obtain ⟨s₃, h₃, r₃, f₃⟩ := h₂.finish r₂ hfirst
  refine ⟨_, s₃, h₃, rfl, rfl, ?_, f₃, ?_, ?_⟩
  · rw [r₃.waiting.pending_eq]
    rfl
  · exact r₃.delivered ⟨rfl, fun _ => rfl⟩
  · exact r₃.last

end NodeLink.Live
