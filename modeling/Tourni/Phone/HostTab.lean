import Tourni.Lib.Transition
import Tourni.Model.AddGroups
import Tourni.Model.Phone

/-!
# Hosting a tournament

`HostController.swift` and the `AddGroupsController` it opens: the title and the description, the dialog that adds
groups, and the button that generates the tournament, writes it and goes back. What is written is what a
`Registration` stands for.
-/

namespace Tourni

inductive HostField where
  | eventName
  | description
  deriving DecidableEq, Repr

structure HostController where
  tournament : Tournament := {}
  textField : HostField → String := fun _ => ""

namespace HostController

/-- The delegate refuses an edit after which it counts more than twenty characters. -/
def edit (c : HostController) (field : HostField) (text : String) (countOfChars : Int) : HostController :=
  if countOfChars > 20 then c else { c with textField := Function.update c.textField field text }

/-- `createButtonPressed`, and the view that `prepare` hands the tournament to. -/
def createButtonPressed (c : HostController) : HostController × Option AddGroupsController :=
  if c.textField .eventName == "" || c.textField .description == "" then (c, none)
  else
    let tournament := (c.tournament.setTitle (c.textField .eventName)).setDescription (c.textField .description)
    ({ c with tournament }, some { tournament })

end HostController

/-- The tab of the host: the view at the bottom, the one above it, the codes on the phone, and the documents
written so far, oldest first. -/
structure HostTab where
  host : HostController := {}
  addGroups : Option AddGroupsController := none
  defaults : UserDefaults
  written : List (String × Document) := []

inductive HostTabEvent where
  | edit (field : HostField) (text : String) (countOfChars : Int)
  | createButtonPressed
  | addGroup (text : String)
  | doneButtonPressed (draw : Nat → Fin 36)
  | back

namespace HostTab

/-- The done button, given the draws of `genCode`; the tournament of `AddGroupsController` is a copy. -/
def doneButtonPressed (s : HostTab) (draw : Nat → Fin 36) : Option HostTab := do
  let c ← s.addGroups
  if c.tournament.getNumGroups < 2 then some s
  else
    let gameCode := genCode 4 draw
    let t ← c.doneButtonPressed gameCode
    let written ← t.store
    some { s with
      addGroups := none
      defaults := s.defaults.append .hosted gameCode
      written := s.written ++ [written] }

/-- Only the view on top takes events. -/
def step (s : HostTab) : HostTabEvent → Option HostTab
  | .edit field text countOfChars =>
    if s.addGroups.isNone then some { s with host := s.host.edit field text countOfChars } else none
  | .createButtonPressed =>
    if s.addGroups.isNone then
      let (host, addGroups) := s.host.createButtonPressed
      some { s with host, addGroups }
    else none
  | .addGroup text => s.addGroups.map fun c => { s with addGroups := some (c.addGroup text) }
  | .doneButtonPressed draw => s.doneButtonPressed draw
  | .back => s.addGroups.map fun _ => { s with addGroups := none }

end HostTab

/-- What the two views let a host enter: a title and a description, and a code of four letters. -/
structure Registration.Entered (reg : Registration) : Prop where
  title : reg.title ≠ ""
  description : reg.description ≠ ""
  gameCode : ∃ draw, reg.gameCode = genCode 4 draw

/-- The dialog is open on a titled tournament, after some texts. -/
def Dialog (c : AddGroupsController) : Prop :=
  ∃ (title description : String) (texts : List String), title ≠ "" ∧ description ≠ "" ∧
    c = texts.foldl AddGroupsController.addGroup {
      tournament := { title := some title, description := some description } }

/-- What was written and stored on the phone, since its hosted codes were `hosted`, are the registrations. -/
structure Registers (hosted : List String) (s : HostTab) (regs : List Registration) : Prop where
  entered : ∀ reg ∈ regs, reg.Entered
  written : s.written.map some = regs.map (·.created.store)
  hosted : s.defaults .hosted = hosted ++ regs.map (·.gameCode)
  titled : ∃ title description, s.host.tournament = { title, description }
  dialog : ∀ c, s.addGroups = some c → Dialog c

variable {s t : HostTab} {hosted : List String} {regs : List Registration} {e : HostTabEvent} {c : AddGroupsController}
  {reg : Registration} {draw : Nat → Fin 36}

/-! ### The done button -/

/-- A dialog with two or more groups is the one of a registration. -/
theorem Dialog.registration (dialog : Dialog c) (enough : ¬ c.tournament.getNumGroups < 2) (draw : Nat → Fin 36) :
    ∃ reg : Registration, reg.Entered ∧ reg.gameCode = genCode 4 draw ∧ c = reg.dialog := by
  obtain ⟨title, description, texts, hasTitle, hasDescription, rfl⟩ := dialog
  rw [Registration.foldl_addGroup _ _ rfl] at enough ⊢
  simp only [Tournament.getNumGroups, Registration.entered_length, Nat.not_lt] at enough
  let reg : Registration := {
    names := Registration.accepted texts
    title, description
    gameCode := genCode 4 draw
    enough := enough
    nonempty := Registration.accepted_nonempty texts
    distinct := Registration.accepted_nodup texts }
  refine ⟨reg, ⟨hasTitle, hasDescription, draw, rfl⟩, rfl, ?_⟩
  rw [reg.dialog_eq]

theorem created_store (reg : Registration) : ∃ document, reg.created.store = some (reg.gameCode, document) := by
  rw [reg.created_eq]
  exact ⟨_, rfl⟩

/-- The done button on the dialog of a registration writes its tournament. -/
theorem doneButtonPressed_eq (opened : s.addGroups = some reg.dialog) (code : reg.gameCode = genCode 4 draw) :
    ∃ document, reg.created.store = some (reg.gameCode, document) ∧ s.step (.doneButtonPressed draw) = some { s with
      addGroups := none
      defaults := s.defaults.append .hosted reg.gameCode
      written := s.written ++ [(reg.gameCode, document)] } := by
  obtain ⟨document, stored⟩ := created_store reg
  refine ⟨document, stored, ?_⟩
  have enough : ¬ reg.dialog.tournament.getNumGroups < 2 := by
    rw [reg.dialog_eq, Tournament.getNumGroups, Registration.entered_length]
    exact Nat.not_lt.mpr reg.enough
  have pressed : reg.dialog.doneButtonPressed reg.gameCode = some reg.created := by
    rw [reg.generated, reg.created_eq]
  unfold HostTab.step HostTab.doneButtonPressed
  simp only [opened, Option.bind_eq_bind, Option.bind_some, if_neg enough, ← code, pressed, stored]

/-! ### The events -/

theorem Dialog.addGroup (dialog : Dialog c) (text : String) : Dialog (c.addGroup text) := by
  obtain ⟨title, description, texts, hasTitle, hasDescription, rfl⟩ := dialog
  exact ⟨title, description, texts ++ [text], hasTitle, hasDescription, by rw [List.foldl_append]; rfl⟩

theorem Registers.step (registers : Registers hosted s regs) (stepped : s.step e = some t) :
    ∃ regs, Registers hosted t regs := by
  obtain ⟨entered, written, codes, titled, dialog⟩ := registers
  cases e with
  | edit field text countOfChars =>
    unfold HostTab.step at stepped
    dsimp only at stepped
    split at stepped
    · obtain rfl := Option.some.inj stepped
      refine ⟨regs, entered, written, codes, ?_, dialog⟩
      unfold HostController.edit
      split
      · exact titled
      · exact titled
    · cases stepped
  | createButtonPressed =>
    unfold HostTab.step at stepped
    dsimp only at stepped
    split at stepped
    · obtain rfl := Option.some.inj stepped
      refine ⟨regs, entered, written, codes, ?_, ?_⟩
      · unfold HostController.createButtonPressed
        split
        · exact titled
        · obtain ⟨title, description, same⟩ := titled
          exact ⟨_, _, by rw [same]; rfl⟩
      · intro c opened
        unfold HostController.createButtonPressed at opened
        split at opened
        · cases opened
        · rename_i filled
          rw [Bool.or_eq_true, beq_iff_eq, beq_iff_eq, not_or] at filled
          obtain ⟨title, description, same⟩ := titled
          obtain rfl := Option.some.inj opened
          exact ⟨_, _, [], filled.1, filled.2, by rw [same]; rfl⟩
    · cases stepped
  | addGroup text =>
    obtain ⟨c, opened, rfl⟩ := Option.map_eq_some_iff.mp stepped
    refine ⟨regs, entered, written, codes, titled, fun d same => ?_⟩
    obtain rfl := Option.some.inj same
    exact (dialog c opened).addGroup text
  | doneButtonPressed draw =>
    have pressed := stepped
    obtain ⟨c, opened, stepped⟩ := Option.bind_eq_some_iff.mp stepped
    split at stepped
    · obtain rfl := Option.some.inj stepped
      exact ⟨regs, entered, written, codes, titled, dialog⟩
    · rename_i enough
      obtain ⟨reg, enters, code, rfl⟩ := (dialog c opened).registration enough draw
      obtain ⟨document, stored, writes⟩ := doneButtonPressed_eq opened code
      obtain rfl := Option.some.inj (writes.symm.trans pressed)
      refine ⟨regs ++ [reg], ?_, ?_, ?_, titled, fun c none => by cases none⟩
      · intro other member
        rcases List.mem_append.mp member with old | new
        · exact entered other old
        · obtain rfl := List.mem_singleton.mp new
          exact enters
      · rw [List.map_append, List.map_append, written, List.map_singleton, List.map_singleton, stored]
      · dsimp only
        rw [UserDefaults.append_same, codes, List.map_append, List.append_assoc]
        rfl
  | back =>
    obtain ⟨_, -, rfl⟩ := Option.map_eq_some_iff.mp stepped
    exact ⟨regs, entered, written, codes, titled, fun c none => by cases none⟩

/-- Whatever the host does, what the tab writes are the created tournaments of registrations, each under its own
code, and the phone has these codes in the same order. -/
theorem tab_registers {defaults : UserDefaults} {es : List HostTabEvent}
    (ran : Transition.run HostTab.step { defaults } es = some s) :
    ∃ regs : List Registration, (∀ reg ∈ regs, reg.Entered) ∧ s.written.map some = regs.map (·.created.store) ∧
      s.defaults .hosted = defaults .hosted ++ regs.map (·.gameCode) := by
  have keep : ∀ (s : HostTab) e t, (∃ regs, Registers (defaults .hosted) s regs) → s.step e = some t →
      ∃ regs, Registers (defaults .hosted) t regs := by
    rintro s e t ⟨regs, registers⟩ stepped
    exact registers.step stepped
  have start : Registers (defaults .hosted) { defaults } [] := by
    refine ⟨?_, rfl, (List.append_nil _).symm, ⟨none, none, rfl⟩, ?_⟩
    · intro reg member
      cases member
    · intro c opened
      cases opened
  obtain ⟨regs, entered, written, codes, -, -⟩ := Transition.run_invariant' keep ⟨[], start⟩ ran
  exact ⟨regs, entered, written, codes⟩

/-- Two groups, and a name that is refused twice. -/
def cupEvents : List HostTabEvent :=
  [.createButtonPressed, .edit .eventName "Cup" 3, .edit .description "Spring" 6, .createButtonPressed,
    .addGroup "A", .addGroup "A", .addGroup "", .doneButtonPressed fun _ => 0, .addGroup "B",
    .doneButtonPressed fun _ => 1, .createButtonPressed, .back]

theorem tab_registers_cup :
    ∃ s, Transition.run HostTab.step { defaults := fun _ => [] } cupEvents = some s ∧ s.written.length = 1 ∧
      ∃ regs : List Registration, (∀ reg ∈ regs, reg.Entered) ∧ s.written.map some = regs.map (·.created.store) ∧
        s.defaults .hosted = [] ++ regs.map (·.gameCode) := by
  have ends : (Transition.run HostTab.step { defaults := fun _ => [] } cupEvents).map (·.written.length) =
      some 1 := by decide
  obtain ⟨s, ran, length⟩ := Option.map_eq_some_iff.mp ends
  exact ⟨s, ran, length, tab_registers ran⟩

/-! ### Every registration -/

/-- The texts fit into the text fields, whatever is in them. -/
structure Registration.Fits (reg : Registration) : Prop where
  title : reg.title.length ≤ 20
  description : reg.description.length ≤ 20

/-- Some events lead from `s` to `t`. -/
def HostTab.Leads (s t : HostTab) : Prop := Transition.Leads HostTab.step (fun _ _ => True) s t

theorem leads_edit {field : HostField} {text : String} (below : s.addGroups = none) (fits : text.length ≤ 20) :
    s.Leads { s with host := { s.host with textField := Function.update s.host.textField field text } } := by
  refine .single (e := .edit field text text.length) trivial ?_
  unfold HostTab.step HostController.edit
  simp only [below, Option.isNone_none, if_true]
  rw [if_neg (by omega)]

theorem leads_names (names : List String) (opened : s.addGroups = some c) :
    s.Leads { s with addGroups := some (names.foldl AddGroupsController.addGroup c) } := by
  induction names generalizing s c with
  | nil => exact opened ▸ .refl s
  | cons name names ih =>
    have added : s.step (.addGroup name) = some { s with addGroups := some (c.addGroup name) } := by
      unfold HostTab.step
      rw [opened]
      rfl
    exact Transition.Leads.trans (.single (e := .addGroup name) trivial added) (ih rfl)

/-- A registration is entered from the bottom of the tab, and its tournament written. -/
theorem leads_registration (entered : reg.Entered) (fits : reg.Fits) (below : s.addGroups = none)
    (titled : ∃ title description, s.host.tournament = { title, description }) :
    ∃ t document, s.Leads t ∧ reg.created.store = some (reg.gameCode, document) ∧
      t.written = s.written ++ [(reg.gameCode, document)] ∧
      t.defaults .hosted = s.defaults .hosted ++ [reg.gameCode] ∧ t.addGroups = none ∧
      ∃ title description, t.host.tournament = { title, description } := by
  obtain ⟨title, description, same⟩ := titled
  obtain ⟨draw, code⟩ := entered.gameCode
  let named : HostTab := { s with host := { s.host with
    textField := Function.update s.host.textField .eventName reg.title } }
  let described : HostTab := { named with host := { named.host with
    textField := Function.update named.host.textField .description reg.description } }
  let opened : AddGroupsController :=
    { tournament := { title := some reg.title, description := some reg.description } }
  let created : HostTab := { described with
    host := { described.host with tournament := opened.tournament }, addGroups := some opened }
  let filled : HostTab := { created with addGroups := some reg.dialog }
  have toNamed : s.Leads named := leads_edit below fits.title
  have toDescribed : named.Leads described := leads_edit below fits.description
  have toCreated : described.Leads created := by
    refine .single (e := .createButtonPressed) trivial ?_
    have titleText : described.host.textField .eventName = reg.title := by
      simp [described, named]
    have descriptionText : described.host.textField .description = reg.description := by
      simp [described]
    have tournament : described.host.tournament = { title, description } := same
    have filledIn : (reg.title == "" || reg.description == "") = false := by
      simp [entered.title, entered.description]
    have bottom : described.addGroups = none := below
    unfold HostTab.step HostController.createButtonPressed
    simp only [bottom, Option.isNone_none, if_true, titleText, descriptionText, filledIn, Bool.false_eq_true, if_false,
      tournament]
    rfl
  have toFilled : created.Leads filled := leads_names reg.names rfl
  obtain ⟨document, stored, pressed⟩ := doneButtonPressed_eq (s := filled) rfl code
  have onward : s.Leads _ := toNamed.trans (toDescribed.trans (toCreated.trans (toFilled.trans
    (.single (e := .doneButtonPressed draw) trivial pressed))))
  refine ⟨_, document, onward, stored, rfl, ?_, rfl, _, _, rfl⟩
  show s.defaults.append .hosted reg.gameCode .hosted = _
  exact UserDefaults.append_same

/-- The tab can write the tournaments of any registrations that fit, one after the other. -/
theorem registrations_written (defaults : UserDefaults) (entered : ∀ reg ∈ regs, reg.Entered)
    (fits : ∀ reg ∈ regs, reg.Fits) :
    ∃ es s, Transition.run HostTab.step { defaults } es = some s ∧ s.written.map some = regs.map (·.created.store) ∧
      s.defaults .hosted = defaults .hosted ++ regs.map (·.gameCode) := by
  have leads : ∃ s : HostTab, HostTab.Leads { defaults } s ∧ s.written.map some = regs.map (·.created.store) ∧
      s.defaults .hosted = defaults .hosted ++ regs.map (·.gameCode) ∧ s.addGroups = none ∧
      ∃ title description, s.host.tournament = { title, description } := by
    induction regs using List.reverseRecOn with
    | nil => exact ⟨_, .refl _, rfl, (List.append_nil _).symm, rfl, none, none, rfl⟩
    | append_singleton regs reg ih =>
      obtain ⟨s, before, written, codes, below, titled⟩ :=
        ih (fun other member => entered other (by simp [member])) fun other member => fits other (by simp [member])
      obtain ⟨t, document, onward, stored, writtenAfter, codesAfter, rest⟩ :=
        leads_registration (entered reg (by simp)) (fits reg (by simp)) below titled
      refine ⟨t, before.trans onward, ?_, ?_, rest⟩
      · rw [writtenAfter, List.map_append, List.map_append, written, List.map_singleton, List.map_singleton, stored]
      · rw [codesAfter, codes, List.map_append, List.append_assoc]
        rfl
  obtain ⟨s, ⟨es, -, ran⟩, written, codes, -⟩ := leads
  exact ⟨es, s, ran, written, codes⟩

def cup : Registration :=
  { names := ["C", "D"], title := "Cup", description := "Spring", gameCode := genCode 4 fun _ => 1
    enough := by decide, nonempty := by decide, distinct := by decide }

theorem registrations_written_cup :
    ∃ es s, Transition.run HostTab.step { defaults := fun _ => ["abcd"] } es = some s ∧
      s.written.map some = [cup, cup].map (·.created.store) ∧
      s.defaults .hosted = ["abcd"] ++ [cup, cup].map (·.gameCode) := by
  have entered : ∀ reg ∈ [cup, cup], reg.Entered := by
    intro reg member
    obtain rfl : reg = cup := by simpa using member
    exact ⟨by decide, by decide, _, rfl⟩
  have fits : ∀ reg ∈ [cup, cup], reg.Fits := by
    intro reg member
    obtain rfl : reg = cup := by simpa using member
    exact ⟨by decide, by decide⟩
  exact registrations_written (fun _ => ["abcd"]) entered fits

end Tourni
