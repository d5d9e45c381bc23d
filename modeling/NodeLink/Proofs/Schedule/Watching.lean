import NodeLink.Schedule.Watch
import NodeLink.Proofs.Schedule.Visits

/-!
# How long a watch lasts

A watch goes on from one look to the next, whatever becomes of the pictures that it has made. The one thing that
ends it is a reading that fails: the file has gone since it was looked at, or its bytes are no text.
-/

namespace NodeLink

open Relation (ReflTransGen)

/-! ### Looks -/

/-- What a look comes to: the file is not there, it has not changed, its text is taken note of, or it cannot be read. -/
inductive Finding where
  | absent
  | unchanged
  | noted (text : Json)
  | failed (fault : Fault)

def Finding.fault? : Finding → Option Fault
  | .failed fault => some fault
  | _ => none

namespace Sight

/-- What a look comes to, given when the file had been changed as it was looked at last. -/
def finding (path : List Char) (seen : Json) (sight : Sight) : Finding :=
  match sight.changed with
  | none => .absent
  | some changed =>
    if changed.equal seen then .unchanged
    else match sight.text path with
      | .ok text => .noted text
      | .error fault => .failed fault

def seenAfter (seen : Json) (sight : Sight) : Json :=
  match sight.changed with
  | none => seen
  | some changed => if changed.equal seen then seen else changed

/-- What one look after the other comes to. -/
def findings (path : List Char) (seen : Json) : List Sight → List Finding
  | [] => []
  | sight :: sights => sight.finding path seen :: findings path (sight.seenAfter seen) sights

theorem findings_append (path : List Char) (seen : Json) (sights more : List Sight) :
    findings path seen (sights ++ more) =
      findings path seen sights ++ findings path (sights.foldl seenAfter seen) more := by
  induction sights generalizing seen with
  | nil => rfl
  | cons sight sights ih => exact congrArg _ (ih (sight.seenAfter seen))

end Sight

namespace FileWatch

open Debouncer (Goes Sound Keeps)

variable {τ σ ρ : Type} [Clock τ] {r : Live.Worker τ σ ρ} {interval delay : τ} {path : List Char} {world : σ}
  {w w' : FileWatch τ σ ρ}

/-- The watch without the visit that is due. -/
def visited (w : FileWatch τ σ ρ) : FileWatch τ σ ρ :=
  { w with live := { w.live with ready := w.live.ready.drop 1 } }

/-- The watch with a timer for the next look. -/
def resting (interval : τ) (w : FileWatch τ σ ρ) : FileWatch τ σ ρ :=
  { w with live := { w.live with timeline := w.live.timeline.set interval .visit } }

def noting (notices : List Notice) (w : FileWatch τ σ ρ) : FileWatch τ σ ρ :=
  { w with live := { w.live with state := w.live.state.noting notices } }

/-- What a look does. After all but a reading that fails, the watch goes on to the next look. -/
inductive Looks (interval : τ) (path : List Char) : FileWatch τ σ ρ → Finding → FileWatch τ σ ρ → Prop
  | absent {w : FileWatch τ σ ρ} : Looks interval path w .absent
      ((w.noting [.unreadable (String.ofList path) (Files.Fault.mk .missing path).message]).resting interval)
  | unchanged {w : FileWatch τ σ ρ} : Looks interval path w .unchanged (w.resting interval)
  | noted {w : FileWatch τ σ ρ} {text seen : Json} {live : Live.Diagram τ σ ρ}
      (hnotify : w.live.notify text = .ok live) :
      Looks interval path w (.noted text) ({ w with seen, live }.resting interval)
  | failed {w : FileWatch τ σ ρ} {fault : Fault} {seen : Json} :
      Looks interval path w (.failed fault) { w with seen, ended := some fault }

/-- Whatever happens to a watch from its start on, with what its looks come to. -/
inductive Run (r : Live.Worker τ σ ρ) (interval delay : τ) (path : List Char) (world : σ) :
    List Finding → FileWatch τ σ ρ → Prop
  | start : Run r interval delay path world [] (.start (.ok delay) world)
  | goes {findings : List Finding} {w : FileWatch τ σ ρ} {live : Live.Diagram τ σ ρ}
      (h : Run r interval delay path world findings w) (hgoes : Goes (Live.routine r) w.live live) :
      Run r interval delay path world findings { w with live }
  | look {findings : List Finding} {w w' : FileWatch τ σ ρ} {finding : Finding}
      (h : Run r interval delay path world findings w) (hvisit : w.live.isVisited = true)
      (hlooks : Looks interval path w.visited finding w') :
      Run r interval delay path world (findings ++ [finding]) w'

/-- Nothing has ended the watch, and one look is to come. -/
structure Lasts (findings : List Finding) (w : FileWatch τ σ ρ) : Prop where
  readings : ∀ finding ∈ findings, finding.fault? = none
  ended : w.ended = none
  visits : w.live.visits = 1

/-- The last look has ended the watch, and there are no more to come. -/
structure Ends (findings : List Finding) (w : FileWatch τ σ ρ) (fault : Fault) : Prop where
  readings : ∃ before, findings = before ++ [.failed fault] ∧ ∀ finding ∈ before, finding.fault? = none
  ended : w.ended = some fault
  visits : w.live.visits = 0

/-- What is known of a watch in the course of a run. -/
structure Known (delay : τ) (findings : List Finding) (w : FileWatch τ σ ρ) : Prop where
  sound : Sound w.live
  delay : w.live.delay = .ok delay
  lasts : Lasts findings w ∨ ∃ fault, Ends findings w fault

theorem sound_start : Sound (FileWatch.start (.ok delay) world : FileWatch τ σ ρ).live :=
  ⟨nofun, nofun, nofun⟩

theorem known_start : Known delay [] (.start (.ok delay) world : FileWatch τ σ ρ) :=
  ⟨sound_start, rfl, Or.inl ⟨nofun, rfl, rfl⟩⟩

omit [Clock τ] in
theorem sound_visited (h : Sound w.live) : Sound w.visited.live := ⟨h.known, h.handled, h.apart⟩

omit [Clock τ] in
theorem visits_visited (h : w.live.isVisited = true) : w.live.visits = w.visited.live.visits + 1 := by
  unfold Debouncer.isVisited at h
  unfold Debouncer.visits visited
  cases hready : w.live.ready with
  | nil =>
    rw [hready] at h
    cases h
  | cons task rest =>
    rw [hready] at h
    cases task with
    | visit =>
      rw [List.countP_cons]
      exact Nat.add_right_comm _ _ _
    | ring alarm => cases h
    | run n phase => cases h

theorem known_resting {findings : List Finding} {finding : Finding} (hs : Sound w.live) (hd : w.live.delay = .ok delay)
    (hvisits : w.live.visits = 0) (hended : w.ended = none) (hreadings : ∀ f ∈ findings, f.fault? = none)
    (hlast : finding.fault? = none) : Known delay (findings ++ [finding]) (w.resting interval) := by
  have hnext := Debouncer.visits_set w.live interval .visit
  rw [hvisits] at hnext
  refine ⟨hs.set interval .visit, hd, Or.inl ⟨?_, hended, hnext⟩⟩
  exact List.forall_mem_append.mpr ⟨hreadings, List.forall_mem_singleton.mpr hlast⟩

theorem known_look {findings : List Finding} {finding : Finding} (h : Known delay findings w)
    (hvisit : w.live.isVisited = true) (hlooks : Looks interval path w.visited finding w') :
    Known delay (findings ++ [finding]) w' := by
  have hs := sound_visited h.sound
  have hone := visits_visited hvisit
  rcases h.lasts with ⟨hreadings, hended, hvisits⟩ | ⟨fault, hends⟩
  · have hnone : w.visited.live.visits = 0 := by omega
    cases hlooks with
    | absent => exact known_resting ⟨hs.known, hs.handled, hs.apart⟩ h.delay hnone hended hreadings rfl
    | unchanged => exact known_resting hs h.delay hnone hended hreadings rfl
    | noted hnotify =>
      rename_i text seen live
      have hd : w.visited.live.delay = .ok delay := h.delay
      obtain ⟨live', htrigger, hsound, hkept, hdelay⟩ := Debouncer.keeps_trigger hs hd (.compute text)
      obtain rfl : live' = live := Except.ok.inj (htrigger.symm.trans hnotify)
      exact known_resting hsound (hdelay.trans hd) (hkept.trans hnone) hended hreadings rfl
    | failed =>
      rename_i fault seen
      exact ⟨hs, h.delay, Or.inr ⟨fault, ⟨findings, rfl, hreadings⟩, rfl, hnone⟩⟩
  · -- No look is due once the watch has ended.
    have hnone := hends.visits
    omega

theorem Run.known {findings : List Finding} (h : Run r interval delay path world findings w) :
    Known delay findings w := by
  induction h with
  | start => exact known_start
  | goes _ hgoes ih =>
    obtain ⟨hsound, hvisits, hdelay⟩ := hgoes.keeps ih.sound
    refine ⟨hsound, hdelay.trans ih.delay, ?_⟩
    rcases ih.lasts with hlasts | ⟨fault, hends⟩
    · exact Or.inl ⟨hlasts.readings, hlasts.ended, hvisits.trans hlasts.visits⟩
    · exact Or.inr ⟨fault, hends.readings, hends.ended, hvisits.trans hends.visits⟩
  | look _ hvisit hlooks ih => exact known_look ih hvisit hlooks

theorem Run.goes_on {findings : List Finding} {live : Live.Diagram τ σ ρ}
    (h : Run r interval delay path world findings w) (hgoes : ReflTransGen (Goes (Live.routine r)) w.live live) :
    Run r interval delay path world findings { w with live } := by
  induction hgoes with
  | refl => exact h
  | tail _ hstep ih => exact ih.goes hstep

theorem visit_eq (interval : τ) (path : List Char) (sight : Sight) (w : FileWatch τ σ ρ) :
    w.visit interval path sight =
      if (w.visited.look path sight).ended.isSome then w.visited.look path sight
      else (w.visited.look path sight).resting interval := rfl

/-! ### What one look comes to -/

section

variable {sight : Sight} {changed : Json}

theorem look_absent (path : List Char) (h : sight.changed = none) :
    w.look path sight = w.noting [.unreadable (String.ofList path) (Files.Fault.mk .missing path).message] := by
  rw [look, h]
  rfl

theorem look_unchanged (path : List Char) (h : sight.changed = some changed) (hequal : changed.equal w.seen = true) :
    w.look path sight = w := by
  rw [look, h]
  exact if_pos hequal

theorem look_failed {fault : Fault} (h : sight.changed = some changed) (hnew : ¬changed.equal w.seen = true)
    (htext : sight.text path = .error fault) :
    w.look path sight = { w with seen := changed, ended := some fault } := by
  have hbroken : sight.text path >>= w.live.notify = .error fault := by
    rw [htext]
    rfl
  rw [look, h]
  refine (if_neg hnew).trans ?_
  dsimp only
  rw [hbroken]

theorem look_noted {text : Json} {live : Live.Diagram τ σ ρ} (h : sight.changed = some changed)
    (hnew : ¬changed.equal w.seen = true) (htext : sight.text path = .ok text) (hnotify : w.live.notify text = .ok live) :
    w.look path sight = { w with seen := changed, live } := by
  have hread : sight.text path >>= w.live.notify = .ok live := by
    rw [htext]
    exact hnotify
  rw [look, h]
  refine (if_neg hnew).trans ?_
  dsimp only
  rw [hread]

end

/-- What a look comes to is a matter of the file alone. -/
theorem looks_visit (interval : τ) (path : List Char) (hd : w.live.delay = .ok delay) (hs : Sound w.live)
    (hended : w.ended = none) (sight : Sight) :
    Looks interval path w.visited (sight.finding path w.seen) (w.visit interval path sight) ∧
      (w.visit interval path sight).seen = sight.seenAfter w.seen := by
  have hlook : (w.visited.look path sight).ended = none →
      w.visit interval path sight = (w.visited.look path sight).resting interval := by
    intro hnone
    rw [visit_eq, hnone]
    rfl
  unfold Sight.finding Sight.seenAfter
  cases hchanged : sight.changed with
  | none =>
    have habsent := look_absent (w := w.visited) path hchanged
    rw [hlook (by rw [habsent]; exact hended), habsent]
    exact ⟨.absent, rfl⟩
  | some changed =>
    dsimp only
    split
    · rename_i hequal
      have hsame := look_unchanged (w := w.visited) path hchanged hequal
      rw [hlook (by rw [hsame]; exact hended), hsame]
      exact ⟨.unchanged, rfl⟩
    · rename_i hnew
      cases htext : sight.text path with
      | error fault =>
        rw [visit_eq, look_failed (w := w.visited) hchanged hnew htext]
        exact ⟨.failed, rfl⟩
      | ok text =>
        obtain ⟨live, hnotify, -⟩ := Debouncer.keeps_trigger (sound_visited hs) hd (.compute text)
        have hnoted := look_noted (w := w.visited) hchanged hnew htext hnotify
        rw [hlook (by rw [hnoted]; exact hended), hnoted]
        exact ⟨.noted hnotify, rfl⟩

/-- What becomes of a watch that has come to some findings: the sights that its further looks have taken, and those
that are left. -/
structure Takes (r : Live.Worker τ σ ρ) (interval delay : τ) (path : List Char) (world : σ) (findings : List Finding)
    (seen : Json) (sights used : List Sight) (out : FileWatch τ σ ρ × List Sight) : Prop where
  sights : sights = used ++ out.2
  run : Run r interval delay path world (findings ++ Sight.findings path seen used) out.1
  seen : out.1.seen = used.foldl Sight.seenAfter seen

theorem Takes.none {findings : List Finding} (h : Run r interval delay path world findings w) (sights : List Sight) :
    Takes r interval delay path world findings w.seen sights [] (w, sights) := by
  refine ⟨rfl, ?_, rfl⟩
  rw [Sight.findings, List.append_nil]
  exact h

theorem Takes.trans {findings : List Finding} {seen : Json} {sights used used' : List Sight}
    {out out' : FileWatch τ σ ρ × List Sight} (h : Takes r interval delay path world findings seen sights used out)
    (h' : Takes r interval delay path world (findings ++ Sight.findings path seen used) out.1.seen out.2 used' out') :
    Takes r interval delay path world findings seen sights (used ++ used') out' := by
  constructor
  · rw [h.sights, h'.sights, List.append_assoc]
  · have hrun := h'.run
    rw [h.seen, List.append_assoc, ← Sight.findings_append] at hrun
    exact hrun
  · rw [h'.seen, h.seen, List.foldl_append]

theorem takes_visit {findings : List Finding} (h : Run r interval delay path world findings w)
    (hvisit : w.live.isVisited = true) (sight : Sight) (sights : List Sight) :
    Takes r interval delay path world findings w.seen (sight :: sights) [sight] (w.visit interval path sight, sights) := by
  have hknown := h.known
  have hended : w.ended = none := by
    rcases hknown.lasts with hlasts | ⟨fault, hends⟩
    · exact hlasts.ended
    · have hone := visits_visited hvisit
      have hnone := hends.visits
      omega
  obtain ⟨hlooks, hseen⟩ := looks_visit interval path hknown.delay hknown.sound hended sight
  exact ⟨rfl, h.look hvisit hlooks, hseen⟩

theorem takes_pass (sleeper : Option Nat) (sights : List Sight) {findings : List Finding}
    (h : Run r interval delay path world findings w) :
    ∃ used, Takes r interval delay path world findings w.seen sights used (pass r interval path sleeper sights w) := by
  induction sights generalizing w findings with
  | nil => exact ⟨[], .none h []⟩
  | cons sight sights ih =>
    have hgone := h.goes_on (Debouncer.goes_pass (Live.routine r) sleeper w.live)
    unfold pass
    dsimp only
    split
    · rename_i hvisit
      have hfirst := takes_visit hgone hvisit sight sights
      obtain ⟨used, hused⟩ := ih hfirst.run
      exact ⟨_, hfirst.trans hused⟩
    · exact ⟨[], .none hgone _⟩

/-- A watch lets one stretch of time pass after the other. -/
def follow (r : Live.Worker τ σ ρ) (interval : τ) (path : List Char) :
    List τ → List Sight → FileWatch τ σ ρ → FileWatch τ σ ρ × List Sight
  | [], sights, w => (w, sights)
  | stretch :: stretches, sights, w =>
    let (w, rest) := w.advance r interval path stretch sights
    follow r interval path stretches rest w

theorem takes_advance (stretch : τ) (sights : List Sight) {findings : List Finding}
    (h : Run r interval delay path world findings w) :
    ∃ used, Takes r interval delay path world findings w.seen sights used (w.advance r interval path stretch sights) :=
  takes_pass _ sights (h.goes (.sleep stretch))

theorem takes_follow (stretches : List τ) (sights : List Sight) {findings : List Finding}
    (h : Run r interval delay path world findings w) :
    ∃ used, Takes r interval delay path world findings w.seen sights used (follow r interval path stretches sights w) := by
  induction stretches generalizing w sights findings with
  | nil => exact ⟨[], .none h sights⟩
  | cons stretch stretches ih =>
    obtain ⟨used, hused⟩ := takes_advance stretch sights h
    obtain ⟨used', hused'⟩ := ih _ hused.run
    exact ⟨_, hused.trans hused'⟩

/-- Whatever a watch finds at its looks, while whatever stretches of time pass, and whatever becomes of its pictures:
it takes note of the text at every look that finds a new time of change and then reads a text, it notices that the
file is not there, and it goes on to the next look, until a reading fails. With that fault it has ended. -/
theorem watches_end_by_failed_readings (r : Live.Worker τ σ ρ) (interval delay : τ) (path : List Char) (world : σ)
    (stretches : List τ) (sights : List Sight) :
    ∃ w used rest, follow r interval path stretches sights (.start (.ok delay) world) = (w, rest) ∧
      sights = used ++ rest ∧ Run r interval delay path world (Sight.findings path .null used) w ∧
      (Lasts (Sight.findings path .null used) w ∨ ∃ fault, Ends (Sight.findings path .null used) w fault) := by
  obtain ⟨used, hsights, hrun, -⟩ := takes_follow stretches sights (.start : Run r interval delay path world [] _)
  exact ⟨_, used, _, rfl, hsights, hrun, hrun.known.lasts⟩

/-! ### A watch that ends -/

theorem settle_of_visited {φ : Type} {r : Routine τ φ σ} {d : Debouncer τ φ σ} (h : d.isVisited = true) :
    d.settle r = d := by
  unfold Debouncer.isVisited at h
  unfold Debouncer.settle
  split
  · rename_i hready
    rw [hready] at h
    cases h
  · rename_i task rest hready
    rw [hready] at h
    exact if_pos h

theorem pass_of_visited {sleeper : Option Nat} (h : w.live.isVisited = true) (sight : Sight) (sights : List Sight) :
    pass r interval path sleeper (sight :: sights) w = pass r interval path sleeper sights (w.visit interval path sight) := by
  have hstays : w.live.pass (Live.routine r) sleeper = w.live := by
    unfold Debouncer.pass
    rw [settle_of_visited h]
    exact if_pos (by rw [h, Bool.true_or])
  rw [pass, hstays]
  exact if_pos h

/-- The first look of a watch finds what the first sight shows. -/
theorem takes_first (r : Live.Worker τ σ ρ) (interval delay : τ) (path : List Char) (world : σ) (stretch : τ)
    (sight : Sight) (sights : List Sight) :
    ∃ used, Takes r interval delay path world [] .null (sight :: sights) (sight :: used)
      (advance r interval path stretch (sight :: sights) (.start (.ok delay) world)) := by
  have hslept := (.start : Run r interval delay path world [] _).goes (.sleep stretch)
  have hvisit : ((FileWatch.start (.ok delay) world : FileWatch τ σ ρ).live.sleep stretch).1.isVisited = true := by
    unfold Debouncer.sleep
    split <;> rfl
  have hfirst := takes_visit hslept hvisit sight sights
  obtain ⟨used, hused⟩ := takes_pass _ sights hfirst.run
  refine ⟨used, ?_⟩
  change Takes r interval delay path world [] .null (sight :: sights) (sight :: used)
    (pass r interval path _ (sight :: sights) _)
  rw [pass_of_visited hvisit]
  exact hfirst.trans hused

/-- A file whose bytes are no text. -/
def brokenFile : FoundFile := ⟨.whole 1, [255]⟩

/-- Not every watch lasts: one that finds a file without a text ends at once. -/
theorem broken_file_ends_watch : ¬∀ (w : Pipeline.World) (settings : Pipeline.Settings) (file : Option FoundFile)
    (delay stretch : Float),
    (Watch.advance (Watch.worker w settings) "in.graph".toList file stretch (Watch.start (.ok delay))).ended = none := by
  intro hall
  have hended := hall { layout := { draw := fun _ => .real 0.5 } } {} (some brokenFile) 1 1
  have hfault : ((Sight.ofFile (some brokenFile)).finding "in.graph".toList .null).fault?.isSome = true := by
    decide +kernel
  obtain ⟨used, -, hrun, -⟩ := takes_first (Watch.worker { layout := { draw := fun _ => .real 0.5 } } {})
    Watch.interval 1 "in.graph".toList 0 1 (.ofFile (some brokenFile)) (List.replicate _ (.ofFile (some brokenFile)))
  rcases hrun.known.lasts with hlasts | ⟨fault, hends⟩
  · rw [hlasts.readings _ List.mem_cons_self] at hfault
    cases hfault
  · exact absurd (hends.ended.symm.trans hended) (Option.some_ne_none fault)

end FileWatch
end NodeLink
