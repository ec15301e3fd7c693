import UiRunner.Proofs.Files.Name
import UiRunner.Proofs.Run.Limit
import UiRunner.Proofs.Run.Mistake

/-!
# Taking screenshots

A screenshot step makes the reports directory, asks the device for a picture and writes it into one
file of that directory. It stops at the first of these that fails or is cut off, and `Shot` lists
how it can go. What it leaves in the files follows from that: directories on the way to the reports
directory, and the file if the device gave a picture. An operation on the files is carried out also
when nobody waits for it any longer.
-/
namespace UiRunner.Run

open Routine UiRunner.Action Files

variable {σ α β : Type} {env : Environment σ} {w v : World σ} {cutoff : Option Nat}

/-! ## Commands and files -/

theorem World.signal_files (w : World σ) : w.signal.files = w.files := by
  unfold signal
  split <;> rfl

theorem World.call_finish_files (w v : World σ) (c : Call) (r : Reaction σ α) :
    ((w.call c r).finish v).2.files = v.files := by
  simp only [call]
  split <;> simp [signal_files]

theorem World.command_world_files (env : Environment σ) (w : World σ) (cutoff : Option Nat)
    (c : Device.Command) : (w.act env cutoff (.command c)).world.files = w.files := by
  rw [act_world]
  rfl

theorem World.command_finish_files (env : Environment σ) (w v : World σ) (cutoff : Option Nat)
    (c : Device.Command) : ((w.act env cutoff (.command c)).finish v).2.files = v.files := by
  refine act_finish env w (·.files) (fun v => ?_) cutoff v
  exact call_finish_files w v (.command c) (env.command w.now c w.outside)

/-- A request stores what comes of it when it is begun. The answer tells so if it is not cut off. -/
structure Underway.Stores (u : Underway σ (Fate α)) (w : World σ) (cutoff : Option Nat)
    (outcome : α × Tree) : Prop where
  files : u.world.files = outcome.2
  journal : u.world.journal = w.journal
  answer : ∃ t, u.due = some t ∧ ((∀ v, u.finish v = (.answered outcome.1, v)) ∨
    cutoff = some t ∧ ∀ v, u.finish v = (.cut, v))

theorem World.stores_store (w : World σ) (ms : Nat) (op : Tree → α × Tree) (cutoff : Option Nat) :
    (((w.store ms op).map Fate.answered).cutAt cutoff).Stores w cutoff (op w.files) where
  files := by
    rw [Underway.cutAt_world]
    rfl
  journal := by
    rw [Underway.cutAt_world]
    rfl
  answer := by
    cases cutoff with
    | none => exact ⟨_, rfl, .inl fun v => rfl⟩
    | some c =>
      simp only [Underway.cutAt]
      split
      · exact ⟨_, rfl, .inl fun v => rfl⟩
      · exact ⟨c, rfl, .inr ⟨rfl, fun v => rfl⟩⟩

theorem World.stores_makeDirectories (env : Environment σ) (w : World σ) (cutoff : Option Nat)
    (dir : Path) : (w.act env cutoff (.makeDirectories dir)).Stores w cutoff
      (env.storage.makeDirectories w.files dir) :=
  stores_store ..

theorem World.stores_write (env : Environment σ) (w : World σ) (cutoff : Option Nat) (path : Path)
    (b : Bytes) : (w.act env cutoff (.write path b)).Stores w cutoff
      (env.storage.save w.files path b) :=
  stores_store ..

/-! ## How a screenshot goes -/

/-- What the script asks for once the name of the file can be used. -/
theorem script_screenshot_of_usable {s : Settings} {ps : Params}
    (usable : ¬ Text.isBlankText (safeName (ps.str "filename")) = true) :
    ∃ made, (Behavior.screenshot.script s ps).run = .ask (.makeDirectories s.reportsDir) made ∧
      (∀ e, ∃ m, made (.error e) = .done (.ok (.failed m))) ∧
      ∃ shot, made (.ok ()) = .ask (.command .screenshot) shot ∧
        (∀ e, shot (.error e) = .done (.error e)) ∧
        ∀ png, ∃ written, shot (.ok png) =
            .ask (.write (Path.join s.reportsDir (safeName (ps.str "filename"))) png) written ∧
          (∃ m, written (.ok ()) = .done (.ok (.passed m))) ∧
          ∀ e, ∃ m, written (.error e) = .done (.ok (.failed m)) := by
  rw [Behavior.script, Action.screenshot]
  dsimp only
  rw [if_neg usable]
  exact ⟨_, rfl, fun e => ⟨_, rfl⟩, _, rfl, fun e => rfl, fun png => ⟨_, rfl, ⟨_, rfl⟩,
    fun e => ⟨_, rfl⟩⟩⟩

/-- What becomes of a script whose device gave no picture. -/
def Fate.pictureless : Fate (Except Error Bytes) → Option (Fate (Except Error Outcome))
  | .answered (.ok _) => none
  | .answered (.error e) => some (.answered (.error e))
  | .panicked q => some (.panicked q)
  | .cut => some .cut
  | .crashed q => some (.crashed q)

/-- How the script of a screenshot can go from a world on: what is exchanged, where that leads to,
and what comes of the script unless it waits forever. -/
inductive Shot (st : Storage) (s : Settings) (name : String) (cutoff : Option Nat) (w : World σ) :
    Trace → World σ → Option (Fate (Except Error Outcome)) → Prop where
  | unusable (m : String) : Text.isBlankText name = true →
      Shot st s name cutoff w [] w (some (.answered (.ok (.failed m))))
  | unprepared {v : World σ} : ¬ Text.isBlankText name = true →
      v.files = (st.makeDirectories w.files s.reportsDir).2 → v.journal = w.journal →
      Shot st s name cutoff w [⟨.act (.makeDirectories s.reportsDir) cutoff, .cut⟩] v (some .cut)
  | noDirectory {v : World σ} {e : Problem} (m : String) : ¬ Text.isBlankText name = true →
      st.makeDirectories w.files s.reportsDir = (.error e, v.files) → v.journal = w.journal →
      Shot st s name cutoff w
        [⟨.act (.makeDirectories s.reportsDir) cutoff, .answered (.error e)⟩] v
        (some (.answered (.ok (.failed m))))
  | waiting {v : World σ} : ¬ Text.isBlankText name = true →
      st.makeDirectories w.files s.reportsDir = (.ok (), v.files) →
      Shot st s name cutoff w [⟨.act (.makeDirectories s.reportsDir) cutoff, .answered (.ok ())⟩] v
        none
  | lost {v : World σ} {f : Fate (Except Error Bytes)} {g : Fate (Except Error Outcome)} :
      ¬ Text.isBlankText name = true →
      st.makeDirectories w.files s.reportsDir = (.ok (), v.files) → f.pictureless = some g →
      Shot st s name cutoff w [⟨.act (.makeDirectories s.reportsDir) cutoff, .answered (.ok ())⟩,
        ⟨.act (.command .screenshot) cutoff, f⟩] v (some g)
  | unawaited {v : World σ} {files : Tree} {b : Bytes} {c : Nat} :
      ¬ Text.isBlankText name = true →
      st.makeDirectories w.files s.reportsDir = (.ok (), files) →
      v.files = (st.save files (Path.join s.reportsDir name) b).2 → cutoff = some c → c ≤ v.now →
      Shot st s name cutoff w [⟨.act (.makeDirectories s.reportsDir) cutoff, .answered (.ok ())⟩,
        ⟨.act (.command .screenshot) cutoff, .answered (.ok b)⟩,
        ⟨.act (.write (Path.join s.reportsDir name) b) cutoff, .cut⟩] v (some .cut)
  | unsaved {v : World σ} {b : Bytes} {e : Problem} (m : String) :
      ¬ Text.isBlankText name = true →
      st.makeDirectories w.files s.reportsDir = (.ok (), v.files) →
      st.write v.files (Path.join s.reportsDir name) b = .error e →
      Shot st s name cutoff w [⟨.act (.makeDirectories s.reportsDir) cutoff, .answered (.ok ())⟩,
        ⟨.act (.command .screenshot) cutoff, .answered (.ok b)⟩,
        ⟨.act (.write (Path.join s.reportsDir name) b) cutoff, .answered (.error e)⟩] v
        (some (.answered (.ok (.failed m))))
  | saved {v : World σ} {files : Tree} {b : Bytes} (m : String) :
      ¬ Text.isBlankText name = true →
      st.makeDirectories w.files s.reportsDir = (.ok (), files) →
      st.write files (Path.join s.reportsDir name) b = .ok v.files →
      Shot st s name cutoff w [⟨.act (.makeDirectories s.reportsDir) cutoff, .answered (.ok ())⟩,
        ⟨.act (.command .screenshot) cutoff, .answered (.ok b)⟩,
        ⟨.act (.write (Path.join s.reportsDir name) b) cutoff, .answered (.ok ())⟩] v
        (some (.answered (.ok (.passed m))))

section

variable {s : Settings} {name : String}

/-- What becomes of the script once the device has given a picture. -/
theorem shot_of_pictured {b : Bytes}
    {written : Except Problem Unit → Routine Action.stage (Except Error Outcome)}
    (named : ¬ Text.isBlankText name = true)
    (directories : env.storage.makeDirectories w.files s.reportsDir = (.ok (), v.files))
    (succeeded : ∃ m, written (.ok ()) = .done (.ok (.passed m)))
    (failed : ∀ e, ∃ m, written (.error e) = .done (.ok (.failed m))) :
    let saving : Course (Fate (Except Error Outcome)) :=
      within cutoff (.ask (.write (Path.join s.reportsDir name) b) written)
    Shot env.storage s name cutoff w
      (⟨.act (.makeDirectories s.reportsDir) cutoff, .answered (.ok ())⟩ ::
        ⟨.act (.command .screenshot) cutoff, .answered (.ok b)⟩ :: saving.trace env none v)
      (saving.run env none v).2 (saving.run env none v).1.result? := by
  intro saving
  obtain ⟨files, -, t, due, answered | ⟨limit, cut⟩⟩ :=
    World.stores_write env v cutoff (Path.join s.reportsDir name) b
  · rw [within_run_of_due written due (answered _), within_trace_of_due written due (answered _)]
    simp only [Fate.goOn]
    rcases outcome : env.storage.save v.files (Path.join s.reportsDir name) b with ⟨_ | _, after⟩
    · obtain ⟨refused, rfl⟩ := Storage.save_eq_error_iff.1 outcome
      obtain ⟨m, ended⟩ := failed _
      rw [ended]
      simp only [outcome] at files
      rw [← files] at directories refused
      exact .unsaved m named directories refused
    · obtain ⟨m, ended⟩ := succeeded
      rw [ended]
      simp only [outcome] at files
      have written := Storage.save_eq_ok_iff.1 outcome
      rw [← files] at written
      exact .saved m named directories written
  · rw [within_run_of_due written due (cut _), within_trace_of_due written due (cut _)]
    exact .unawaited named directories files limit (Nat.le_max_right ..)

/-- What becomes of the script once the directory is made. -/
theorem shot_of_asked {shot : Except Error Bytes → Routine Action.stage (Except Error Outcome)}
    (named : ¬ Text.isBlankText name = true)
    (directories : env.storage.makeDirectories w.files s.reportsDir = (.ok (), v.files))
    (failed : ∀ e, shot (.error e) = .done (.error e))
    (pictured : ∀ png, ∃ written, shot (.ok png) =
        .ask (.write (Path.join s.reportsDir name) png) written ∧
      (∃ m, written (.ok ()) = .done (.ok (.passed m))) ∧
      ∀ e, ∃ m, written (.error e) = .done (.ok (.failed m))) :
    let asked : Course (Fate (Except Error Outcome)) :=
      within cutoff (.ask (.command .screenshot) shot)
    Shot env.storage s name cutoff w
      (⟨.act (.makeDirectories s.reportsDir) cutoff, .answered (.ok ())⟩ ::
        asked.trace env none v)
      (asked.run env none v).2 (asked.run env none v).1.result? := by
  intro asked
  cases due : (v.act env cutoff (.command .screenshot)).due with
  | none =>
    obtain ⟨pending, stuck⟩ := within_run_of_never shot due
    rw [stuck, within_trace_of_never shot due]
    refine .waiting named ?_
    rw [World.command_world_files, directories]
  | some t =>
    obtain ⟨f, u, answer⟩ : ∃ f u, (v.act env cutoff (.command .screenshot)).finish
      ((v.act env cutoff (.command .screenshot)).world.reach t) = (f, u) := ⟨_, _, rfl⟩
    have kept : u.files = v.files := by
      have same := World.command_finish_files env v
        ((v.act env cutoff (.command .screenshot)).world.reach t) cutoff .screenshot
      rw [answer] at same
      exact same.trans (World.command_world_files ..)
    rw [← kept] at directories
    rw [within_run_of_due shot due answer, within_trace_of_due shot due answer]
    rcases f with (e | b) | q | _ | q
    · simp only [Fate.goOn, failed]
      exact .lost named directories rfl
    · obtain ⟨written, asks, saved, unsaved⟩ := pictured b
      simp only [Fate.goOn, asks]
      exact shot_of_pictured named directories saved unsaved
    · exact .lost named directories rfl
    · exact .lost named directories rfl
    · exact .lost named directories rfl

/-- The script of a screenshot goes in one of these ways. -/
theorem shot_of_run (env : Environment σ) (s : Settings) (ps : Params) (cutoff : Option Nat)
    (w : World σ) : Shot env.storage s (safeName (ps.str "filename")) cutoff w
      ((within cutoff (Behavior.screenshot.script s ps).run).trace env none w)
      ((within cutoff (Behavior.screenshot.script s ps).run).run env none w).2
      ((within cutoff (Behavior.screenshot.script s ps).run).run env none w).1.result? := by
  by_cases blank : Text.isBlankText (safeName (ps.str "filename")) = true
  · obtain ⟨m, ended⟩ := script_screenshot_of_unusable (s := s) blank
    rw [ended]
    exact .unusable m blank
  obtain ⟨made, script, unmade, shot, goesOn, failed, pictured⟩ :=
    script_screenshot_of_usable (s := s) blank
  rw [script]
  obtain ⟨files, journal, t, due, answered | ⟨-, cut⟩⟩ :=
    World.stores_makeDirectories env w cutoff s.reportsDir
  · rw [within_run_of_due made due (answered _), within_trace_of_due made due (answered _)]
    simp only [Fate.goOn]
    rcases directories : env.storage.makeDirectories w.files s.reportsDir with ⟨e | _, after⟩
    · obtain ⟨m, ended⟩ := unmade e
      rw [ended]
      simp only [directories] at files
      exact .noDirectory m blank (directories.trans (congrArg _ files.symm)) journal
    · simp only [directories] at files
      simp only [goesOn]
      exact shot_of_asked blank (directories.trans (congrArg _ files.symm)) failed pictured
  · rw [within_run_of_due made due (cut _), within_trace_of_due made due (cut _)]
    exact .unprepared blank files journal

end

/-! ## What a screenshot leaves -/

def picture? : Exchange → Option (Fate (Except Error Bytes))
  | ⟨.act (.command .screenshot) _, f⟩ => some f
  | _ => none

/-- What the device answered when it was asked for a picture. -/
def pictures (t : Trace) : List (Fate (Except Error Bytes)) := t.filterMap picture?

/-- The picture, if that is what the device answered. -/
def Fate.given? : Fate (Except Error Bytes) → Option Bytes
  | .answered (.ok b) => some b
  | _ => none

theorem Fate.given?_eq_some_iff {f : Fate (Except Error Bytes)} {b : Bytes} :
    f.given? = some b ↔ f = .answered (.ok b) := by
  rcases f with (e | b') | q | _ | q <;> simp [given?]

theorem pictures_now_cons (now : Nat) (t : Trace) : pictures (⟨.now, now⟩ :: t) = pictures t := rfl

namespace Shot

variable {st : Storage} {s : Settings} {name : String} {t : Trace}
  {o : Option (Fate (Except Error Outcome))}

/-- The directories that are made, and then no file or the one whose content the device gave. -/
theorem files (h : Shot st s name cutoff w t v o) : v.files = w.files ∨
    ∃ made, (st.makeDirectories w.files s.reportsDir).2 = made ∧ (v.files = made ∨
      ∃ b, .answered (.ok b) ∈ pictures t ∧
        st.write made (Path.join s.reportsDir name) b = .ok v.files) := by
  cases h with
  | unusable => exact .inl rfl
  | unprepared named files => exact .inr ⟨_, rfl, .inl files⟩
  | noDirectory _ named directories | waiting named directories | lost named directories
  | unsaved _ named directories =>
    exact .inr ⟨_, rfl, .inl (by rw [directories])⟩
  | @unawaited v made b c named directories left =>
    refine .inr ⟨made, by rw [directories], ?_⟩
    rcases outcome : st.save made (Path.join s.reportsDir name) b with ⟨_ | _, after⟩
    · rw [outcome] at left
      exact .inl (left.trans (Storage.save_eq_error_iff.1 outcome).2)
    · rw [outcome] at left
      exact .inr ⟨b, List.mem_singleton_self _, left ▸ Storage.save_eq_ok_iff.1 outcome⟩
  | @saved v made b m named directories written =>
    exact .inr ⟨made, by rw [directories], .inr ⟨b, List.mem_singleton_self _, written⟩⟩

/-- Without a picture only directories are new. -/
theorem grown (h : Shot st s name cutoff w t v o) (none : ∀ b, .answered (.ok b) ∉ pictures t) :
    Tree.Grown (Tree.OnWayIn st v.files s.reportsDir) w.files v.files := by
  obtain same | ⟨made, directories, same | ⟨b, shown, -⟩⟩ := h.files
  · rw [same]
    exact .refl _ _
  · rw [same]
    exact Tree.grown_of_makeDirectories (Prod.ext rfl directories)
  · exact absurd shown (none b)

theorem cwd (h : Shot st s name cutoff w t v o) : v.files.cwd = w.files.cwd := by
  obtain same | ⟨made, directories, rest⟩ := h.files
  · rw [same]
  · have grown : Tree.Grown _ w.files made :=
      Tree.grown_of_makeDirectories (Prod.ext rfl directories)
    obtain same | ⟨b, -, written⟩ := rest
    · rw [same, grown.cwd]
    · rw [Tree.cwd_write written, grown.cwd]

/-- The device is asked for a picture only if there is a name for it. -/
theorem named (h : Shot st s name cutoff w t v o) {f : Fate (Except Error Bytes)}
    (shown : f ∈ pictures t) : name ≠ "" := by
  rintro rfl
  have blank : Text.isBlankText "" = true := rfl
  cases h with
  | unusable | unprepared | noDirectory | waiting => cases shown
  | lost named | unawaited named | unsaved _ named | saved _ named => exact named blank

/-- What has changed is a new directory on the way, or what the file in the last one leads to. -/
theorem changed (h : Shot st s name cutoff w t v o) (safe : IsSafe name.toList) {place : Place}
    (changed : v.files.get? place ≠ w.files.get? place) :
    w.files.get? place = none ∧ v.files.get? place = some .dir ∧
        Tree.OnWayIn st v.files s.reportsDir place ∨
      ∃ b parent, .answered (.ok b) ∈ pictures t ∧
        st.locate v.files (Path.join s.reportsDir name) = .ok (place, some (.file b)) ∧
        Tree.resolveIn st v.files s.reportsDir = .ok parent ∧
        st.leads (parent ++ [name]) = .ok place := by
  obtain same | ⟨made, directories, rest⟩ := h.files
  · exact absurd (by rw [same]) changed
  have grown : Tree.Grown _ w.files made := Tree.grown_of_makeDirectories (Prod.ext rfl directories)
  obtain rfl | ⟨b, shown, written⟩ := rest
  · obtain same | onWay := grown.get? place
    · exact absurd same changed
    · exact .inl onWay
  · obtain ⟨free, dir, onWay⟩ | located := grown.changed_write written changed
    · exact .inl ⟨free, dir, onWay.write written⟩
    · obtain ⟨parent, resolved, leads⟩ := Tree.leads_of_locate_join safe (h.named shown) located
      exact .inr ⟨b, parent, shown, located, resolved, leads⟩

theorem holds_of_passed {m : String}
    (h : Shot st s name cutoff w t v (some (.answered (.ok (.passed m))))) :
    ∃ b, .answered (.ok b) ∈ pictures t ∧
      st.read v.files (Path.join s.reportsDir name) = .ok b := by
  cases h with
  | @lost _ f _ named directories lost =>
    rcases f with (e | b) | q | _ | q <;> cases lost
  | saved m named directories written =>
    exact ⟨_, List.mem_singleton_self _, Storage.read_write written⟩

/-- The script passes when the file holds the picture, unless it held it before and may not be
written, or nobody has waited for the file to be written. -/
theorem passed_of_holds (h : Shot st s name cutoff w t v o) {b : Bytes}
    (shown : .answered (.ok b) ∈ pictures t)
    (held : st.read v.files (Path.join s.reportsDir name) = .ok b) :
    (∃ m, o = some (.answered (.ok (.passed m)))) ∨
      ((∃ m, o = some (.answered (.ok (.failed m)))) ∧ ∃ place e,
        st.locate v.files (Path.join s.reportsDir name) = .ok (place, some (.file b)) ∧
        w.files.get? place = some (.file b) ∧ st.refuses place (.file b) = some e) ∨
      o = some .cut ∧ ∃ c, cutoff = some c ∧ c ≤ v.now := by
  cases h with
  | unusable | unprepared | noDirectory | waiting => cases shown
  | lost named directories lost =>
    obtain rfl := List.mem_singleton.1 shown
    cases lost
  | unawaited named directories left limit late => exact .inr (.inr ⟨rfl, _, limit, late⟩)
  | unsaved m named directories refused =>
    obtain ⟨⟩ := List.mem_singleton.1 shown
    obtain ⟨place, located, write⟩ := Tree.write_of_read held b
    refine .inr (.inl ⟨⟨m, rfl⟩, place, ?_⟩)
    obtain ⟨-, there, -⟩ := Storage.locate_eq_ok_iff.1 located
    have before := (Tree.grown_of_makeDirectories directories).file_iff.1 there
    rw [write, Storage.put] at refused
    split at refused
    · rename_i e forbidden
      exact ⟨e, located, before, forbidden⟩
    · cases refused
  | saved m => exact .inl ⟨m, rfl⟩

theorem eq_of_unusable (h : Shot st s name cutoff w t v o)
    (blank : Text.isBlankText name = true) : v = w := by
  cases h <;> first | rfl | exact absurd blank ‹_›

theorem uncalled (h : Shot st s name cutoff w t v o) (stuck : Text.isBlankText name = true ∨
    ∃ e, (st.makeDirectories w.files s.reportsDir).1 = .error e) :
    v.journal = w.journal ∧ pictures t = [] := by
  cases h with
  | unusable => exact ⟨rfl, rfl⟩
  | unprepared named files quiet => exact ⟨quiet, rfl⟩
  | noDirectory m named directories quiet => exact ⟨quiet, rfl⟩
  | waiting named directories | lost named directories | unawaited named directories
  | unsaved _ named directories | saved _ named directories =>
    obtain blank | ⟨e, refused⟩ := stuck
    · exact absurd blank named
    · rw [directories] at refused
      cases refused

theorem pictureless (h : Shot st s name cutoff w t v o) {f : Fate (Except Error Bytes)}
    {g : Fate (Except Error Outcome)} (shown : f ∈ pictures t) (lost : f.pictureless = some g) :
    o = some g := by
  cases h with
  | unusable | unprepared | noDirectory | waiting => cases shown
  | lost named directories lost' =>
    obtain rfl := List.mem_singleton.1 shown
    exact lost'.symm.trans lost
  | unawaited | unsaved | saved =>
    obtain rfl := List.mem_singleton.1 shown
    cases lost

end Shot

/-! ## The step -/

namespace Policy

variable {p : Policy} {s : Step} {d : Definition} {ps : Params}

/-- A screenshot step goes as its script does. -/
theorem shot_of_execute (env : Environment σ) (w : World σ) (prepared : p.prepare s = .ok (d, ps))
    (isShot : d.behavior = .screenshot) : ∃ t o,
      Shot env.storage p.settings (safeName (ps.str "filename"))
        (p.limit.map (Clock.wake w.now)) w t ((p.execute s).run env none w).2 o ∧
      ((p.execute s).run env none w).1.result? = o.map (p.result d.name) ∧
      pictures ((p.execute s).trace env none w) = pictures t := by
  have shot := shot_of_run env p.settings ps (p.limit.map (Clock.wake w.now)) w
  rw [execute_of_prepared prepared, perform, Course.run_now_bind, Course.trace_now_bind, isShot]
  simp only [pure_eq]
  rw [Course.run_bind_done_world, Course.result?_run_bind_done, Course.trace_bind_done]
  exact ⟨_, _, shot, rfl, pictures_now_cons ..⟩

theorem result_eq_passed_iff {name m : String} {f : Fate (Except Error Outcome)} :
    p.result name f = .ok (.ok (some (.passed m))) ↔ f = .answered (.ok (.passed m)) := by
  rcases f with (e | o) | q | _ | q <;> simp [result]

/-- What a screenshot step does between two worlds, with this trace and, if it is over, with this
result. -/
structure ScreenshotEffects (p : Policy) (st : Storage) (d : Definition) (ps : Params)
    (w v : World σ) (t : Trace) (result : Option (Except Panic StepResult)) : Prop where
  cwd : v.files.cwd = w.files.cwd
  /-- What has changed is a new directory on the way of the reports directory, or what the one file
  in it leads to, which holds what the device gave. -/
  changed : ∀ place, v.files.get? place ≠ w.files.get? place →
    w.files.get? place = none ∧ v.files.get? place = some .dir ∧
        Tree.OnWayIn st v.files p.settings.reportsDir place ∨
      ∃ b parent, .answered (.ok b) ∈ pictures t ∧
        st.locate v.files (Path.join p.settings.reportsDir (safeName (ps.str "filename"))) =
          .ok (place, some (.file b)) ∧
        Tree.resolveIn st v.files p.settings.reportsDir = .ok parent ∧
        st.leads (parent ++ [safeName (ps.str "filename")]) = .ok place
  passed : ∀ m, result = some (.ok (.ok (some (.passed m)))) →
    ∃ b, .answered (.ok b) ∈ pictures t ∧
      st.read v.files (Path.join p.settings.reportsDir (safeName (ps.str "filename"))) = .ok b
  /-- The step passes when the file holds what the device gave, unless it held it before and may
  not be written, or the time of the step is over. -/
  holds : ∀ b, .answered (.ok b) ∈ pictures t →
    st.read v.files (Path.join p.settings.reportsDir (safeName (ps.str "filename"))) = .ok b →
      (∃ m, result = some (.ok (.ok (some (.passed m))))) ∨
      ((∃ m, result = some (.ok (.ok (some (.failed m))))) ∧ ∃ place e,
        st.locate v.files (Path.join p.settings.reportsDir (safeName (ps.str "filename"))) =
          .ok (place, some (.file b)) ∧
        w.files.get? place = some (.file b) ∧ st.refuses place (.file b) = some e) ∨
      result = some (p.result d.name .cut) ∧
        ∃ limit, p.limit = some limit ∧ Clock.wake w.now limit ≤ v.now
  /-- Without a name nothing is touched. -/
  unusable : Text.isBlankText (safeName (ps.str "filename")) = true → v = w
  /-- Without a name or a directory nothing is asked of the device. -/
  uncalled : Text.isBlankText (safeName (ps.str "filename")) = true ∨
    (∃ e, (st.makeDirectories w.files p.settings.reportsDir).1 = .error e) →
      v.journal = w.journal ∧ pictures t = []
  /-- An error of the device is one of the step. -/
  error : ∀ e, .answered (.error e) ∈ pictures t →
    result = some (.ok (.error (.actionRuntimeFailure d.name e.message)))
  /-- So is everything else that the device does but give a picture. -/
  lost : ∀ f ∈ pictures t, (∀ b, f ≠ .answered (.ok b)) → (∀ q, f ≠ .crashed q) →
    ∃ reason, result = some (.ok (.error (.actionRuntimeFailure d.name reason)))
  /-- Without a picture every file holds what it did. -/
  contents : (∀ b, .answered (.ok b) ∉ pictures t) → ∀ place content,
    v.files.get? place = some (.file content) ↔ w.files.get? place = some (.file content)

/-- **Effects of a screenshot step.** Whatever name is wanted, wherever reports go, whatever the
files are and however the device reacts: a screenshot step adds directories on the way of the
reports directory and changes one file in it. It passes only if the device gave a picture and this
file holds it, and then it does pass, unless the file may not be written and held the picture
before, or the time of the step is over. A name that cannot be used touches nothing, and without the
directory the device is not asked; when it gives no picture, the step is an error and no file has
changed. -/
theorem screenshot_effects (p : Policy) (env : Environment σ) (s : Step) (w : World σ)
    (prepared : p.prepare s = .ok (d, ps)) (isShot : d.behavior = .screenshot) :
    ScreenshotEffects p env.storage d ps w ((p.execute s).run env none w).2
      ((p.execute s).trace env none w) ((p.execute s).run env none w).1.result? := by
  obtain ⟨t, o, shot, result, same⟩ := shot_of_execute env w prepared isShot
  rw [result]
  exact {
    cwd := shot.cwd
    changed place other := by
      rw [same]
      exact shot.changed (isSafe_safeName _) other
    passed m passed := by
      rw [same]
      obtain ⟨f, rfl, passes⟩ := Option.map_eq_some_iff.1 passed
      obtain rfl := result_eq_passed_iff.1 passes
      exact shot.holds_of_passed
    holds b shown held := by
      rw [same] at shown
      obtain ⟨m, rfl⟩ | ⟨⟨m, rfl⟩, forbidden⟩ | ⟨rfl, c, limit, late⟩ :=
        shot.passed_of_holds shown held
      · exact .inl ⟨m, rfl⟩
      · exact .inr (.inl ⟨⟨m, rfl⟩, forbidden⟩)
      · obtain ⟨span, set, rfl⟩ := Option.map_eq_some_iff.1 limit
        exact .inr (.inr ⟨rfl, span, set, late⟩)
    unusable := shot.eq_of_unusable
    uncalled := by
      rw [same]
      exact shot.uncalled
    error e shown := by
      rw [same] at shown
      rw [shot.pictureless shown rfl]
      rfl
    lost f shown lost calm := by
      rw [same] at shown
      rcases f with (e | b) | q | _ | q
      · exact ⟨_, by rw [shot.pictureless shown rfl]; rfl⟩
      · exact absurd rfl (lost b)
      · exact ⟨_, by rw [shot.pictureless shown rfl]; rfl⟩
      · exact ⟨_, by rw [shot.pictureless shown rfl]; rfl⟩
      · exact absurd rfl (calm q)
    contents none place content := by
      rw [same] at none
      exact (shot.grown none).file_iff }

/-- A step that wants its picture outside of the reports directory. -/
def climbing : Step := { action := "screenshot", params := [("filename", .str "../home.png")] }

/-- The picture stands in the reports directory, which was not there before. -/
theorem screenshot_effects_climbing : ∃ d ps v t result,
    ({} : Policy).prepare climbing = .ok (d, ps) ∧ d.behavior = .screenshot ∧
    ({} : Policy).ScreenshotEffects .plain d ps
      ({ outside := {} } : World Rehearsal.State) v t result ∧
    (∃ m, result = some (.ok (.ok (some (.passed m))))) ∧
    ∃ b, .answered (.ok b) ∈ pictures t ∧ v.files.read "reports/_home.png" = .ok b := by
  have shot : (({} : Policy).prepare climbing).toOption.any (fun x =>
      x.1.behavior = .screenshot ∧ x.2.str "filename" = "../home.png") = true := by decide +kernel
  obtain ⟨⟨d, ps⟩, prepared, shot⟩ := exists_ok_of_any shot
  obtain ⟨isShot, name⟩ := of_decide_eq_true shot
  have succeeded : ((({} : Policy).execute climbing).run (Rehearsal.environment .deserted {}) none
      { outside := {} }).1.result?.any (fun r =>
        r.toOption.any (·.recorded.1 = .success)) = true := by
    decide +kernel
  have path : Path.join "reports" (safeName "../home.png") = "reports/_home.png" := by
    decide +kernel
  have effects := screenshot_effects {} (Rehearsal.environment .deserted {}) climbing
    { outside := {} } prepared isShot
  generalize (({} : Policy).execute climbing).run (Rehearsal.environment .deserted {}) none
    { outside := {} } = out at succeeded effects
  generalize (({} : Policy).execute climbing).trace (Rehearsal.environment .deserted {}) none
    { outside := {} } = t at effects
  obtain ⟨r, result, seen⟩ := (Option.any_eq_true _ _).1 succeeded
  have passed : ∃ m, out.1.result? = some (.ok (.ok (some (.passed m)))) := by
    rw [result]
    rcases r with q | e | _ | m | m
    · cases seen
    · cases seen
    · cases seen
    · exact ⟨m, rfl⟩
    · cases seen
  obtain ⟨m, passes⟩ := passed
  obtain ⟨b, shown, held⟩ := effects.passed m passes
  rw [name] at held
  exact ⟨d, ps, out.2, t, _, prepared, isShot, effects, ⟨m, passes⟩, b, shown, path ▸ held⟩

/-- That the file holds what the device gave does not let a step pass whose time is over. Here the
device gives in the last millisecond what the file held before. -/
theorem held_but_not_passed : ¬ ∀ (p : Policy) (env : Environment Rehearsal.State) (s : Step)
    (w : World Rehearsal.State) (d : Definition) (ps : Params),
    p.prepare s = .ok (d, ps) → d.behavior = .screenshot →
    ((∃ m, ((p.execute s).run env none w).1.result? = some (.ok (.ok (some (.passed m))))) ↔
      ∃ b, .answered (.ok b) ∈ pictures ((p.execute s).trace env none w) ∧
        env.storage.read ((p.execute s).run env none w).2.files
          (Path.join p.settings.reportsDir (safeName (ps.str "filename"))) = .ok b) := by
  intro passes
  let p : Policy := { limit := some (.ofMillis 1000) }
  let env := Rehearsal.environment .deserted {}
  let step : Step := { action := "screenshot", params := [("filename", .str "x.png")] }
  let slow : World Rehearsal.State :=
    { outside := { screen := { faults := [⟨.only 0, .delays 1000⟩] } }
      files := ⟨[], [(["reports"], .dir), (["reports", "x.png"], .file (Bytes.ofText "PNG"))]⟩ }
  have shot : (p.prepare step).toOption.any (fun x =>
      x.1.behavior = .screenshot ∧ x.2.str "filename" = "x.png") = true := by decide +kernel
  obtain ⟨⟨d, ps⟩, prepared, shot⟩ := exists_ok_of_any shot
  obtain ⟨isShot, name⟩ := of_decide_eq_true shot
  have path : Path.join "reports" (safeName "x.png") = "reports/x.png" := by decide +kernel
  have shown : Bytes.ofText "PNG" ∈
      (pictures ((p.execute step).trace env none slow)).filterMap Fate.given? := by
    decide +kernel
  have held : ((p.execute step).run env none slow).2.files.read "reports/x.png" =
      .ok (Bytes.ofText "PNG") := by decide +kernel
  have cut : (((p.execute step).run env none slow).1.result?.any fun r =>
      r.toOption.any (·.recorded.1 = .failure)) = true := by decide +kernel
  obtain ⟨f, gave, given⟩ := List.mem_filterMap.1 shown
  obtain rfl := Fate.given?_eq_some_iff.1 given
  obtain ⟨m, passed⟩ := (passes p env step slow d ps prepared isShot).2
    ⟨_, gave, by rw [name]; exact path ▸ held⟩
  rw [passed] at cut
  cases cut

end Policy

end UiRunner.Run
