import NodeLink.Proofs.Schedule.Timers
import Mathlib.Logic.Relation

/-!
# Visits

Whatever goes on between visits, on whatever clock: none of them gets lost, and none comes twice. A visit that is to be
paid waits for its turn or for its timer, and no trigger takes its place.
-/

namespace NodeLink

open Relation (ReflTransGen)

namespace Timeline

variable {τ ε : Type} [Clock τ]

/-- A timeline that has gone on: what rings of it, and what is left. -/
structure Left (l : Timeline τ ε) (found : List ε) (l' : Timeline τ ε) : Prop where
  nextId : l'.nextId = l.nextId
  mem : ∀ t ∈ l'.timers, t ∈ l.timers
  perm : (found ++ (live l'.timers).map (·.event)).Perm ((live l.timers).map (·.event))

theorem left_due (l : Timeline τ ε) : Left l l.due.1 l.due.2 := by
  obtain ⟨hlive, hmem⟩ := clear_keeps l.timers
  refine ⟨rfl, fun t ht => hmem t (mem_takeDue ht), ?_⟩
  have hperm := (takeDue_perm l.now (clear l.timers)).filter (!·.cancelled)
  rw [List.filter_append] at hperm
  have hevents := (hperm.trans hlive).map (·.event)
  rwa [List.map_append] at hevents

theorem left_next? {l l' : Timeline τ ε} {found : List ε} (h : l.next? = some (found, l')) : Left l found l' := by
  obtain ⟨hlive, hmem⟩ := clear_keeps l.timers
  unfold next? at h
  split at h
  · cases h
  · rename_i t rest hp
    cases h
    refine ⟨rfl, fun u hu => hmem u ((mem_pop? hp).mpr (Or.inl (mem_takeDue hu))), ?_⟩
    have hpop := (Heap.pop?_perm isBefore hp).toList
    rw [Array.toList_push] at hpop
    have htaken := (takeDue_perm (Clock.later l.now t.due) rest).cons t
    have hperm := ((htaken.trans (List.perm_append_singleton t rest.toList).symm).trans hpop).filter (!·.cancelled)
    rw [← List.cons_append, List.filter_append] at hperm
    have hevents := (hperm.trans hlive).map (·.event)
    rwa [List.map_append] at hevents

end Timeline

def Alarm.isVisit {φ : Type} : Alarm φ → Bool
  | .visit => true
  | _ => false

/-- Whether a visit is paid now or when an alarm has rung. -/
def Task.leadsToVisit {φ : Type} : Task φ → Bool
  | .visit => true
  | .ring alarm => alarm.isVisit
  | .run .. => false

namespace Debouncer

open Timeline (live)

variable {τ φ σ : Type} [Clock τ] {r : Routine τ φ σ} {d d' : Debouncer τ φ σ}

/-- One step of what goes on between visits: what is due rings, time goes on to the next timer, a task is done, or
somebody else sets a timer for being woken. -/
inductive Goes (r : Routine τ φ σ) : Debouncer τ φ σ → Debouncer τ φ σ → Prop
  | due {d : Debouncer τ φ σ} (hready : d.ready = []) :
      Goes r d { d with ready := d.timeline.due.1.map .ring, timeline := d.timeline.due.2 }
  | next {d : Debouncer τ φ σ} {found : List (Alarm φ)} {l : Timeline τ (Alarm φ)}
      (hnext : d.timeline.next? = some (found, l)) :
      Goes r d { d with ready := d.ready ++ found.map .ring, timeline := l }
  | task {d : Debouncer τ φ σ} {task : Task φ} {rest : List (Task φ)} (hready : d.ready = task :: rest)
      (htask : task.isVisit = false) : Goes r d (perform r { d with ready := rest } task)
  | sleep {d : Debouncer τ φ σ} (stretch : τ) : Goes r d (d.sleep stretch).1

theorem goes_settle (r : Routine τ φ σ) (d : Debouncer τ φ σ) : ReflTransGen (Goes r) d (settle r d) := by
  fun_induction settle r d with
  | case1 d hready timeline hdue =>
    have hgoes := Goes.due (r := r) hready
    rw [hdue] at hgoes
    have hsame : { d with ready := [], timeline := timeline } = { d with timeline := timeline } := by rw [← hready]
    exact .single (hsame ▸ hgoes)
  | case2 d hready alarm alarms timeline hdue ih =>
    have hgoes := Goes.due (r := r) hready
    rw [hdue] at hgoes
    exact .head hgoes ih
  | case3 => exact .refl
  | case4 d task rest hready htask ih => exact .head (.task hready (Bool.eq_false_iff.mpr htask)) ih

theorem goes_pass (r : Routine τ φ σ) (sleeper : Option Nat) (d : Debouncer τ φ σ) :
    ReflTransGen (Goes r) d (pass r sleeper d) := by
  fun_induction pass r sleeper d with
  | case1 d => exact goes_settle r d
  | case2 d => exact goes_settle r d
  | case3 d settled _ found l hnext ih => exact (goes_settle r d).trans (.head (.next hnext) ih)

/-- How many visits are still to be paid. -/
def visits (d : Debouncer τ φ σ) : Nat :=
  d.ready.countP Task.leadsToVisit + (live d.timeline.timers).countP (·.event.isVisit)

/-- Timers have been numbered, and what is pending is no visit. -/
structure Sound (d : Debouncer τ φ σ) : Prop where
  known : ∀ t ∈ d.timeline.timers, t.id < d.timeline.nextId
  handled : ∀ id ∈ d.handle, id < d.timeline.nextId
  apart : ∀ t ∈ d.timeline.timers, d.handle = some t.id → t.event.isVisit = false

theorem Sound.set (h : Sound d) (pause : τ) (event : Alarm φ) :
    Sound { d with timeline := d.timeline.set pause event } := by
  have hmem {t : Timer τ (Alarm φ)} (ht : t ∈ (d.timeline.set pause event).timers) :
      t ∈ d.timeline.timers ∨ t.id = d.timeline.nextId := by
    rw [Timeline.set, (Heap.push_perm _ _ _).mem_iff, Array.mem_push] at ht
    exact ht.imp_right fun heq => by rw [heq]
  constructor
  · intro t ht
    rcases hmem ht with ht | hid
    · exact Nat.lt_succ_of_lt (h.known t ht)
    · exact hid ▸ Nat.lt_succ_self _
  · exact fun id hid => Nat.lt_succ_of_lt (h.handled id hid)
  · intro t ht hid
    rcases hmem ht with ht | hnew
    · exact h.apart t ht hid
    · exact absurd (h.handled _ hid) (by omega)

theorem visits_set (d : Debouncer τ φ σ) (pause : τ) (event : Alarm φ) :
    visits { d with timeline := d.timeline.set pause event } = visits d + if event.isVisit then 1 else 0 := by
  have hlive : (live (d.timeline.set pause event).timers).Perm
      (⟨d.timeline.nextId, Clock.after d.timeline.now pause, event, false⟩ :: live d.timeline.timers) := by
    refine (Timeline.live_perm (Heap.push_perm _ _ _)).trans ?_
    rw [live, Array.toList_push, List.filter_append]
    exact List.perm_append_singleton _ _
  unfold visits
  rw [hlive.countP_eq, List.countP_cons]
  exact (Nat.add_assoc _ _ _).symm

omit [Clock τ] in
theorem Sound.cancel (h : Sound d) : Sound d.cancel := by
  unfold Debouncer.cancel
  split
  · exact h
  · have hmem {id : Nat} {t : Timer τ (Alarm φ)} (ht : t ∈ (d.timeline.cancel id).timers) :
        ∃ u ∈ d.timeline.timers, Timeline.cancelled id u = t := Array.mem_map.mp ht
    refine ⟨fun t ht => ?_, nofun, nofun⟩
    obtain ⟨u, hu, rfl⟩ := hmem ht
    rw [Timeline.id_cancelled]
    exact h.known u hu

omit [Clock τ] in
theorem visits_cancel (h : Sound d) : visits d.cancel = visits d := by
  unfold Debouncer.cancel
  split
  · rfl
  · rename_i id hid
    unfold visits
    congr 1
    rw [Timeline.live_cancel, List.countP_filter]
    refine List.countP_congr fun t ht => ?_
    have hne : t.event.isVisit = true → t.id ≠ id := by
      rintro hvisit rfl
      rw [h.apart t (Timeline.mem_live.mp ht).1 hid] at hvisit
      cases hvisit
    simpa using hne

/-- What a step leaves as it is. -/
structure Keeps (d d' : Debouncer τ φ σ) : Prop where
  sound : Sound d'
  visits : visits d' = visits d
  delay : d'.delay = d.delay

omit [Clock τ] in
theorem Left.keeps {found : List (Alarm φ)} {l : Timeline τ (Alarm φ)} (hs : Sound d) (h : d.timeline.Left found l) :
    Keeps d { d with ready := d.ready ++ found.map .ring, timeline := l } := by
  refine ⟨⟨?_, ?_, fun t ht => hs.apart t (h.mem t ht)⟩, ?_, rfl⟩
  · intro t ht
    rw [h.nextId]
    exact hs.known t (h.mem t ht)
  · intro id hid
    rw [h.nextId]
    exact hs.handled id hid
  · have hcount := h.perm.countP_eq Alarm.isVisit
    rw [List.countP_append, List.countP_map, List.countP_map] at hcount
    have hring : (found.map (Task.ring (φ := φ))).countP Task.leadsToVisit = found.countP Alarm.isVisit := by
      rw [List.countP_map]
      rfl
    unfold Debouncer.visits
    rw [List.countP_append, hring, Nat.add_assoc]
    exact congrArg _ hcount

theorem keeps_goOn (hs : Sound d) (pause : τ) (n : Nat) (phase : φ) : Keeps d (goOn d pause n phase) := by
  unfold goOn
  split
  · refine ⟨⟨hs.known, hs.handled, hs.apart⟩, ?_, rfl⟩
    unfold visits
    rw [List.countP_append]
    rfl
  · exact ⟨hs.set pause _, visits_set d pause _, rfl⟩

theorem keeps_perform {task : Task φ} {rest : List (Task φ)} (hs : Sound d) (hready : d.ready = task :: rest)
    (htask : task.isVisit = false) : Keeps d (perform r { d with ready := rest } task) := by
  have hrest : Sound { d with ready := rest } := ⟨hs.known, hs.handled, hs.apart⟩
  have hvisits : visits d = visits { d with ready := rest } + if task.leadsToVisit then 1 else 0 := by
    unfold visits
    rw [hready, List.countP_cons]
    exact Nat.add_right_comm _ _ _
  have hadded (tasks : List (Task φ)) : visits { d with ready := rest ++ tasks } =
      visits { d with ready := rest } + tasks.countP Task.leadsToVisit := by
    unfold visits
    rw [List.countP_append]
    exact Nat.add_right_comm _ _ _
  cases task with
  | ring alarm =>
    cases alarm with
    | start phase => exact ⟨⟨hs.known, nofun, nofun⟩, (hadded _).trans hvisits.symm, rfl⟩
    | resume n phase => exact ⟨⟨hs.known, hs.handled, hs.apart⟩, (hadded _).trans hvisits.symm, rfl⟩
    | wake => exact ⟨hrest, hvisits.symm, rfl⟩
    | visit => exact ⟨⟨hs.known, hs.handled, hs.apart⟩, (hadded _).trans hvisits.symm, rfl⟩
  | run n phase =>
    change Keeps d (runPhase r { d with ready := rest } n phase)
    unfold runPhase
    split
    · exact ⟨⟨hs.known, hs.handled, hs.apart⟩, hvisits.symm, rfl⟩
    · rename_i state pause later _
      have hstate : Sound { d with ready := rest, state := state } := ⟨hs.known, hs.handled, hs.apart⟩
      obtain ⟨hsound, hkept, hdelay⟩ := keeps_goOn hstate pause n later
      exact ⟨hsound, hkept.trans hvisits.symm, hdelay⟩
  | visit => cases htask

theorem Goes.keeps (h : Goes r d d') (hs : Sound d) : Keeps d d' := by
  cases h with
  | due hready =>
    have hkeeps := Left.keeps hs (Timeline.left_due d.timeline)
    rwa [hready] at hkeeps
  | next hnext => exact Left.keeps hs (Timeline.left_next? hnext)
  | task hready htask => exact keeps_perform hs hready htask
  | sleep stretch =>
    unfold Debouncer.sleep
    split
    · exact ⟨hs, rfl, rfl⟩
    · exact ⟨hs.set stretch _, visits_set d stretch _, rfl⟩

theorem keeps_trigger {delay : τ} (hs : Sound d) (hd : d.delay = .ok delay) (phase : φ) :
    ∃ d', d.trigger phase = .ok d' ∧ Keeps d d' := by
  refine ⟨{ d.cancel with
    handle := some d.cancel.timeline.nextId
    timeline := d.cancel.timeline.set delay (.start phase) }, ?_, ?_⟩
  · rw [trigger, hd]
    rfl
  · have hset := hs.cancel.set delay (.start phase)
    refine ⟨⟨hset.known, ?_, ?_⟩, ?_, (cancel_keeps d).1⟩
    · rintro id ⟨⟩
      exact Nat.lt_succ_self _
    · intro t ht hid
      rw [Timeline.set, (Heap.push_perm _ _ _).mem_iff, Array.mem_push] at ht
      rcases ht with ht | rfl
      · have hknown := hs.cancel.known t ht
        have hsame : d.cancel.timeline.nextId = t.id := Option.some.inj hid
        omega
      · rfl
    · exact (visits_set d.cancel delay (.start phase)).trans (visits_cancel hs)

end Debouncer
end NodeLink
