import Tourni.Model.AddGroups
import Tourni.Model.MatchUpHost
import Tourni.Lib.Transition

/-!
# An open bracket

The bracket screen of one tournament together with what surrounds it: the table cells and their reuse,
the "Complete round" prompt, and the documents stored so far under the game code. The environment chooses
which rows come on screen and which cell is dequeued for them, and when a stored document reaches the
listener: versions arrive in order, and some may be skipped.
-/

namespace Tourni
open Mirror (Side)

structure Screen where
  controller : BracketController
  visibleCells : UITableView → Nat → Option MatchUpHost := fun _ _ => none
  /-- The cells of each table that left the screen. -/
  reusable : UITableView → List MatchUpHost := fun _ => []
  prompt : Bool := false
  /-- The documents written under the game code, oldest first. -/
  stored : List Document
  /-- How many of the stored documents are behind the listener. -/
  seen : Nat := 0
  /-- Ghost history: the rows of the current round tapped since the last snapshot. -/
  picked : List Nat := []

inductive ScreenEvent where
  | display (table : UITableView) (row : Nat) (reuse : Option Nat)
  | endDisplay (table : UITableView) (row : Nat)
  | tap (side : Side) (table : UITableView) (row : Nat)
  | yes
  | no
  | snapshot (version : Nat)
  | reopen
  deriving DecidableEq, Repr

namespace Screen

/-- The screen when the bracket of a tournament is opened, before its first snapshot. -/
def opened (gameCode : String) (host : Bool) (stored : List Document) : Screen :=
  { controller := { gameCode, host }, stored, seen := stored.length - 1 }

/-- `dequeueReusableCell`: a cell of the table that left the screen, or a new one. -/
def dequeue (s : Screen) (table : UITableView) : Option Nat → Option (MatchUpHost × List MatchUpHost)
  | none => some ({}, s.reusable table)
  | some k => do
    let cell ← (s.reusable table)[k]?
    some (cell, (s.reusable table).eraseIdx k)

def setCell (s : Screen) (table : UITableView) (row : Nat) (cell : Option MatchUpHost) : Screen :=
  { s with visibleCells :=
      Function.update s.visibleCells table (Function.update (s.visibleCells table) row cell) }

def display (s : Screen) (table : UITableView) (row : Nat) (reuse : Option Nat) : Option Screen := do
  let rows ← s.controller.numberOfRows table
  if row < rows ∧ s.visibleCells table row = none then
    let (dequeued, rest) ← s.dequeue table reuse
    let cell ← s.controller.cellForRowAt table row dequeued
    some { s.setCell table row (some cell) with reusable := Function.update s.reusable table rest }
  else none

def endDisplay (s : Screen) (table : UITableView) (row : Nat) : Option Screen := do
  let cell ← s.visibleCells table row
  some { s.setCell table row none with
    reusable := Function.update s.reusable table (s.reusable table ++ [cell]) }

/-- A tap on the button on `side` of a displayed cell; the prompt is modal. -/
def tap (s : Screen) (side : Side) (table : UITableView) (row : Nat) : Option Screen := do
  let cell ← s.visibleCells table row
  if s.prompt then none
  else
    let (tapped, controller, prompted) ← cell.buttonAction side s.controller
    some { s.setCell table row (some tapped) with
      controller := controller
      prompt := prompted
      picked := if cell.accepts side s.controller then row :: s.picked else s.picked }

def yes (s : Screen) : Option Screen :=
  if s.prompt then do
    let (controller, code, document) ← s.controller.nextRound
    some { s with
      controller := controller
      prompt := false
      stored := if code = controller.gameCode then s.stored ++ [document] else s.stored }
  else none

/-- The answer No: `returnToCurrentRound`. -/
def no (s : Screen) : Option Screen :=
  if s.prompt then do
    let table ← ofRound? s.controller.bracketViewArr s.controller.currRound
    some { s with
      controller := { s.controller with
        winnerSelectedCount := s.controller.winnerSelectedCount - 1 }
      prompt := false
      visibleCells := Function.update s.visibleCells table fun row =>
        (s.visibleCells table row).map ({ · with winnerSelected := false }) }
  else none

/-- `reloadData` on every table: the displayed cells go back to the reusable ones. -/
def reloadData (s : Screen) : Screen :=
  { s with
    visibleCells := fun _ _ => none
    reusable := fun table => s.reusable table ++
      (List.range ((s.controller.numberOfRows table).getD 0)).filterMap (s.visibleCells table) }

def snapshot (s : Screen) (version : Nat) : Option Screen :=
  if s.seen ≤ version then do
    let document ← s.stored[version]?
    let t ← Tournament.getTournament s.controller.gameCode document
    let controller ← s.controller.snapshot t
    some { s.reloadData with controller, seen := version + 1, picked := [] }
  else none

def reopen (s : Screen) : Option Screen :=
  if s.prompt then none else some (opened s.controller.gameCode s.controller.host s.stored)

def step (s : Screen) : ScreenEvent → Option Screen
  | .display table row reuse => s.display table row reuse
  | .endDisplay table row => s.endDisplay table row
  | .tap side table row => s.tap side table row
  | .yes => s.yes
  | .no => s.no
  | .snapshot version => s.snapshot version
  | .reopen => s.reopen

/-- The host opens the bracket of a tournament that was just created. -/
def start (reg : Registration) : Screen :=
  opened reg.gameCode true (reg.created.store.toList.map Prod.snd)

end Screen
end Tourni
