import Tourni.Round.Bookkeeping

/-!
# The list of the next round

`nextRound` appends `winners` to the round list, and `winners` is in the order of the changes of mind: a group
that comes back after having been the loser of its row goes to the end.
-/

namespace Tourni
open Mirror

variable {c : BracketController} {L : List Group} {bye : Nat → Prop} {r : Nat} {ps qs : List Pick}

/-- The names in the list that `nextRound` appends after the picks of round `r`. -/
def nextNames (c : BracketController) (L : List Group) (r : Nat) (ps : List Pick) :
    Option (List (Option String)) := do
  let c ← c.play L r ps
  let (c, _) ← c.nextRound
  let next ← c.tournament.roundList.getLast?
  some (next.map Group.name)

theorem play_gameCode (t : Tournament) (L : List Group) (r : Nat) (ps : List Pick) :
    (t.play L r ps).gameCode = t.gameCode := by
  induction ps using List.reverseRecOn with
  | nil => rfl
  | append_singleton ps p ih => rw [Tournament.play_append, ← ih]; rfl

theorem nextNames_eq (round : RoundOpen c L bye r) (loaded : c.tournament.gameCode.isSome) :
    nextNames c L r ps = some ((standing L ps).map (nameAt L)) := by
  obtain ⟨table, onScreen, isSome⟩ := round.onScreen
  obtain ⟨shown, filled⟩ := Option.isSome_iff_exists.mp isSome
  obtain ⟨code, coded⟩ := Option.isSome_iff_exists.mp loaded
  have start : c.tournament.winners.map Group.entry = L.map Group.entry := by rw [round.winners]
  have left : (c.tournament.play L r ps).winners.map Group.name = (standing L ps).map (nameAt L) :=
    play_winner_names start
  have played : c.play L r ps = some _ := BracketController.play_eq round.current onScreen filled
  simp only [nextNames, played, BracketController.nextRound, Tournament.nextRound, Tournament.store,
    play_gameCode, coded, Option.bind_eq_bind, Option.bind_some, List.getLast?_concat, left]

theorem chosen_congr (validP : ∀ p ∈ ps, p.Valid L bye) (validQ : ∀ p ∈ qs, p.Valid L bye)
    (same : ∀ q < L.length / 2, lastPick ps q = lastPick qs q) : chosen L ps = chosen L qs := by
  have outside : ∀ {hs : List Pick}, (∀ p ∈ hs, p.Valid L bye) → ∀ q, ¬ q < L.length / 2 →
      lastPick hs q = none := by
    intro hs valid q outside
    by_contra picked
    obtain ⟨p, member, row, -⟩ := exists_lastPick (Option.isSome_iff_ne_none.mpr picked)
    exact outside (row ▸ (valid p member).1)
  have everywhere : ∀ q, lastPick ps q = lastPick qs q := by
    intro q
    by_cases inside : q < L.length / 2
    · exact same q inside
    · rw [outside validP q inside, outside validQ q inside]
  simp only [chosen, everywhere]

theorem standing_names_iff (seeding : Seeding L bye) (valid : ∀ p ∈ ps, p.Valid L bye)
    (covers : Covers ps L.length) :
    (standing L ps).map (nameAt L) = (chosen L ps).map (nameAt L) ↔ InOrder L ps := by
  rw [← standing_eq_chosen_iff seeding valid covers]
  refine ⟨fun names => ?_, fun same => congrArg _ same⟩
  have lengths : (standing L ps).length = (chosen L ps).length :=
    (standing_perm_chosen seeding valid covers).length_eq
  apply List.ext_getElem lengths
  intro k left right
  have seated := List.getElem_mem left
  have picked := (mem_standing_iff_chosen seeding valid covers).mpr (List.getElem_mem right)
  have sameName : nameAt L (standing L ps)[k] = nameAt L (chosen L ps)[k] := by
    have := congrArg (fun names => names[k]?) names
    simpa [left, right] using this
  exact seeding.eq_of_name (standing_lt valid seated) (standing_lt valid picked)
    (not_bye_of_standing seeding valid covers seated) sameName

/-- Two histories with the same final decisions give the same next round, in the order of the round list,
exactly when in both of them the changes of mind come in that order. -/
theorem next_round_in_seed_order_iff (round : RoundOpen c L bye r)
    (loaded : c.tournament.gameCode.isSome)
    (validP : ∀ p ∈ ps, p.Valid L bye) (validQ : ∀ p ∈ qs, p.Valid L bye)
    (coversP : Covers ps L.length) (coversQ : Covers qs L.length)
    (same : ∀ q < L.length / 2, lastPick ps q = lastPick qs q) :
    (nextNames c L r ps = nextNames c L r qs ∧
      nextNames c L r ps = some ((chosen L ps).map (nameAt L))) ↔ InOrder L ps ∧ InOrder L qs := by
  have orderP := standing_names_iff round.seeding validP coversP
  have orderQ := standing_names_iff round.seeding validQ coversQ
  have choice := chosen_congr validP validQ same
  rw [nextNames_eq round loaded, nextNames_eq round loaded, Option.some.injEq, Option.some.injEq,
    ← orderP, ← orderQ, ← choice]
  constructor
  · rintro ⟨equal, inOrder⟩
    exact ⟨inOrder, equal ▸ inOrder⟩
  · rintro ⟨left, right⟩
    exact ⟨left.trans right.symm, left⟩

/-- Eight groups, and row 0 decided for its first group after a change of mind. -/
def eight : List Group := ["A", "B", "C", "D", "E", "F", "G", "H"].map named

def direct : List Pick := [⟨0, .first, false, false⟩, ⟨1, .first, false, false⟩, ⟨2, .first, false, false⟩,
  ⟨3, .first, false, false⟩]

def changed : List Pick := ⟨0, .second, false, false⟩ :: direct

theorem eight_open : RoundOpen (showing eight) eight (fun _ => False) 1 := by
  refine showing_open _ _ ⟨?_, ?_, ?_⟩
  · intro i _ isBye
    exact isBye.elim
  · decide
  · intro i _ isBye
    exact isBye.elim

theorem next_round_depends_on_history :
    RoundOpen (showing eight) eight (fun _ => False) 1 ∧
    (∀ p ∈ changed ++ direct, p.Valid eight fun _ => False) ∧
    Covers changed 8 ∧ Covers direct 8 ∧ (∀ q < 4, lastPick changed q = lastPick direct q) ∧
    nextNames (showing eight) eight 1 direct = some [some "A", some "B", some "C", some "D"] ∧
    nextNames (showing eight) eight 1 changed = some [some "B", some "C", some "D", some "A"] := by
  refine ⟨eight_open, ?_, ?_, ?_, ?_, ?_, ?_⟩
  · decide
  · decide
  · decide
  · decide
  · decide
  · decide

theorem next_round_in_seed_order_iff_changed :
    (nextNames (showing eight) eight 1 direct = nextNames (showing eight) eight 1 changed ∧
      nextNames (showing eight) eight 1 direct = some ((chosen eight direct).map (nameAt eight))) ↔
    InOrder eight direct ∧ InOrder eight changed := by
  refine next_round_in_seed_order_iff eight_open rfl ?_ ?_ ?_ ?_ ?_
  · decide
  · decide
  · decide
  · decide
  · decide

end Tourni
