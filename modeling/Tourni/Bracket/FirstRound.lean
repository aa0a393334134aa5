import Tourni.Bracket.Incremental
import Tourni.Bracket.ScreenSteps
import Tourni.Bracket.Sources

/-!
# Padding and the first round

From what is typed into the dialog to the rows of the first table: `generate` pads the groups up to the next
power of two, which is less than twice their number, so that every added bye comes second in its row.
-/

namespace Tourni
open Mirror (Side seat)

/-- `t` is generated from the groups of the dialog `c`, the names of which are `names`: byes pad them up to
`N`, and the loop that adds them is left after `N - names.length` turns. -/
structure Generated (c : AddGroupsController) (gameCode : String) (names : List String) (N : Nat)
    (t : Tournament) : Prop where
  distinct : names.Nodup
  nonempty : ∀ name ∈ names, name ≠ ""
  entered : c.tournament.groups = Registration.entered names
  least : IsLeast {m | (∃ k, m = 2 ^ k) ∧ names.length ≤ m} N
  terminates : ∀ fuel ≥ N - names.length,
    Tournament.addFree (names.length + 1) fuel { c.tournament with gameCode := some gameCode } =
      { c.tournament with gameCode := some gameCode, groups := t.groups }
  exits : ∀ m ≤ N - names.length, isPowerOf2 (names.length + m) = true ↔ m = N - names.length
  generated : c.doneButtonPressed gameCode = some t
  groups : t.groups = Registration.entered names ++
    List.replicate (N - names.length) (Group.free (names.length + 1))
  winners : t.winners = t.groups
  roundList : t.roundList = [t.groups]

/-- The rows of a list of `N` groups, those from index `n` on being added byes: every group has one place, no
row has two byes, and every bye comes second. -/
structure Paired (N n : Nat) : Prop where
  once : ∀ j < N, ∃! place : Nat × Side, place.1 < N / 2 ∧ seat N place.1 place.2 = j
  apart : ∀ i < N / 2, ¬ (n ≤ seat N i .first ∧ n ≤ seat N i .second)
  second : ∀ i < N / 2, ∀ side, n ≤ seat N i side → side = .second

/-- The bracket of the host shows the pairs of `t.groups` in its first table, and the first button of every row
decides it. -/
structure ShowsPairs (c : BracketController) (t : Tournament) : Prop where
  table : c.bracketViewArr = [⟨0⟩]
  rows : c.numberOfRows ⟨0⟩ = some (t.groups.length / 2)
  cells : ∀ i < t.groups.length / 2, ∀ dequeued, ∃ g1 g2 cell,
    t.groups[i]? = some g1 ∧ t.groups[t.groups.length - 1 - i]? = some g2 ∧
    c.cellForRowAt ⟨0⟩ i dequeued = some cell ∧ cell.group1 = g1 ∧ cell.group2 = g2 ∧
    ∃ tapped d up, cell.group1ButtonAction c = some (tapped, d, up) ∧
      d.tournament = t.updateWinner g1 g2 1

/-! ### Padding -/

theorem least_pow_clog (n : Nat) : IsLeast {m | (∃ k, m = 2 ^ k) ∧ n ≤ m} (2 ^ Nat.clog 2 n) := by
  refine ⟨⟨⟨_, rfl⟩, Nat.le_pow_clog (by decide) n⟩, ?_⟩
  rintro _ ⟨⟨k, rfl⟩, enough⟩
  exact Nat.pow_le_pow_right (by decide) (Nat.clog_le_of_le_pow enough)

/-- Up to the least power of two there is no other one. -/
theorem isPowerOf2_add_iff {n m : Nat} (bound : m ≤ 2 ^ Nat.clog 2 n - n) :
    isPowerOf2 (n + m) = true ↔ m = 2 ^ Nat.clog 2 n - n := by
  have reached : n ≤ 2 ^ Nat.clog 2 n := Nat.le_pow_clog (by decide) n
  rw [isPowerOf2_iff]
  constructor
  · intro power
    have := (least_pow_clog n).2 ⟨power, Nat.le_add_right n m⟩
    omega
  · intro last
    exact ⟨Nat.clog 2 n, by omega⟩

theorem registration_generated (reg : Registration) :
    Generated reg.dialog reg.gameCode reg.names (2 ^ reg.rounds) reg.created := by
  have enough := reg.enough
  have le := reg.names_le
  have length : (Registration.entered reg.names).length = reg.names.length := Registration.entered_length _
  rw [reg.created_eq]
  refine ⟨reg.distinct, reg.nonempty, ?_, least_pow_clog _, ?_, fun m => isPowerOf2_add_iff, reg.generated,
    rfl, rfl, rfl⟩
  · rw [reg.dialog_eq]
  · intro fuel many
    rw [reg.dialog_eq]
    dsimp only
    rw [Tournament.addFree_eq _ _ _ (by dsimp only; omega)]
    · simp only [length]
      rfl
    · dsimp only
      rw [length]
      show 2 ^ reg.rounds ≤ _
      omega

/-! ### Pairs -/

theorem paired {N n : Nat} (even : 2 ∣ N) (half : N < 2 * n) : Paired N n := by
  refine ⟨?_, ?_, ?_⟩
  · intro j bound
    have here := Mirror.row_lt_of_even bound even
    refine ⟨(Mirror.row N j, Mirror.side N j), ⟨here, Mirror.seat_row_side bound here⟩, ?_⟩
    rintro ⟨i, side⟩ ⟨inside, rfl⟩
    rw [Mirror.row_seat inside, Mirror.side_seat inside]
  · intro i inside both
    have first : n ≤ i := both.1
    omega
  · intro i inside side bye
    cases side with
    | first =>
      have first : n ≤ i := bye
      omega
    | second => rfl

/-! ### The first table -/

variable {c : BracketController}

theorem cellForRowAt_first {gs : List Group} {g1 g2 : Group} {i : Nat} (arr : c.bracketViewArr = [⟨0⟩])
    (filled : c.bracketViewGroupDict ⟨0⟩ = some gs) (first : gs[i]? = some g1)
    (second : gs[gs.length - 1 - i]? = some g2) (dequeued : MatchUpHost) :
    c.cellForRowAt ⟨0⟩ i dequeued = some (dequeued.setMatchup g1 g2 1) := by
  have here : ([⟨0⟩] : List UITableView).findIdx? (· == ⟨0⟩) = some 0 := by decide
  simp only [BracketController.cellForRowAt, filled, first, second, arr, here, Option.bind_eq_bind,
    Option.bind_some]

theorem showsPairs_of_loaded {reg : Registration} (host : c.host = true)
    (loaded : c.Loaded reg.rounds 0 reg.created) : ShowsPairs c reg.created := by
  have positive := reg.rounds_pos
  have one : shownRounds reg.rounds 0 = 1 := shownRounds_of_lt positive
  have arr : c.bracketViewArr = [⟨0⟩] := by
    rw [loaded.arr, one]
    rfl
  have lists : reg.created.roundList = [reg.padded] := by rw [reg.created_eq]
  have groups : reg.created.groups = reg.padded := by rw [reg.created_eq]
  have filled : c.bracketViewGroupDict ⟨0⟩ = some reg.padded := by
    rw [loaded.shown 0 (by omega), lists]
    rfl
  have half : 2 ^ reg.rounds / 2 = 2 ^ (reg.rounds - 1 - 0) := half_pow_sub positive
  refine ⟨arr, ?_, ?_⟩
  · rw [groups, reg.padded_length, loaded.rows 0 (by omega), ← half]
  · intro i below dequeued
    rw [groups] at below ⊢
    have size := reg.padded_length
    have first : reg.padded[i]? = some reg.padded[i] := List.getElem?_eq_getElem (by omega)
    have second : reg.padded[reg.padded.length - 1 - i]? = some reg.padded[reg.padded.length - 1 - i] :=
      List.getElem?_eq_getElem (by omega)
    refine ⟨_, _, _, first, second, cellForRowAt_first arr filled first second dequeued, rfl, rfl, ?_⟩
    let cell := dequeued.setMatchup reg.padded[i] reg.padded[reg.padded.length - 1 - i] 1
    have isHost : c.isHost = true := host
    have current : c.getCurrentRound = 1 := loaded.currRound.trans one
    have accepted : cell.accepts .first c = true := by
      unfold MatchUpHost.accepts
      rw [isHost, current]
      rfl
    have counts : ofRound? c.roundMatches c.currRound = some (2 ^ (reg.rounds - 1 - 0)) := by
      rw [loaded.currRound, one, loaded.roundMatches]
      exact generateMatches_getElem? positive
    have listed : ofRound? c.tournament.roundList cell.round = some reg.padded := by
      rw [loaded.tournament, lists]
      rfl
    have onScreen : ofRound? c.bracketViewArr cell.round = some ⟨0⟩ := by
      rw [arr]
      rfl
    obtain ⟨tapped, d, up, chosen, after⟩ := MatchUpHost.selectWinner_eq counts listed onScreen filled .first
    refine ⟨tapped, d, up, ?_, ?_⟩
    · have action : cell.group1ButtonAction c = cell.buttonAction .first c := rfl
      rw [action, MatchUpHost.buttonAction_eq, if_pos accepted, chosen]
    · rw [after, loaded.tournament]
      rfl

/-- The host's bracket of a tournament that was just created shows its pairs. -/
theorem created_showsPairs (reg : Registration) :
    ∃ document c, reg.created.store = some (reg.gameCode, document) ∧
      ({ gameCode := reg.gameCode, host := true } : BracketController).deliver document = some c ∧
      ShowsPairs c reg.created := by
  obtain ⟨document, written, loaded⟩ := (created_sourced reg).stored
  let opened : BracketController := { gameCode := reg.gameCode, host := true }
  obtain ⟨c, shown, after, kept⟩ := BracketController.snapshot_fresh (c := opened) reg.created_sized rfl rfl
  have host : c.host = true := kept.2.1
  refine ⟨document, c, written, ?_, showsPairs_of_loaded host after⟩
  exact (deliver_eq (c := opened) rfl loaded).trans shown

/-- Whatever is typed into the dialog, two accepted names are enough for one `generate`, which pads the groups
to the least power of two and pairs them so that the first button decides every row. -/
theorem padding_and_pairing (texts : List String) (title description gameCode : String)
    (enough : 2 ≤ (texts.foldl AddGroupsController.addGroup
      { tournament := { title := some title, description := some description } }).tournament.getNumGroups) :
    ∃ names N t, Generated (texts.foldl AddGroupsController.addGroup
        { tournament := { title := some title, description := some description } }) gameCode names N t ∧
      Paired N names.length ∧
      ∃ document c, t.store = some (gameCode, document) ∧
        ({ gameCode, host := true } : BracketController).deliver document = some c ∧ ShowsPairs c t := by
  let names := Registration.accepted texts
  have dialog : texts.foldl AddGroupsController.addGroup
      { tournament := { title := some title, description := some description } } =
      { tournament := {
          title := some title, description := some description, groups := Registration.entered names }
        seed := names.length + 1 } := Registration.foldl_addGroup texts _ rfl
  have several : 2 ≤ names.length := by
    rw [dialog] at enough
    exact (Registration.entered_length names) ▸ enough
  let reg : Registration :=
    { names, title, description, gameCode, enough := several
      nonempty := Registration.accepted_nonempty texts, distinct := Registration.accepted_nodup texts }
  have even : 2 ∣ 2 ^ reg.rounds := dvd_pow_self 2 reg.rounds_pos.ne'
  refine ⟨names, 2 ^ reg.rounds, reg.created, ?_, paired even reg.pow_lt, created_showsPairs reg⟩
  rw [dialog, ← reg.dialog_eq]
  exact registration_generated reg

/-- Three names, one of them typed twice, and an empty text. -/
theorem padding_and_pairing_three :
    ∃ names N t, Generated (["A", "B", "A", "", "C"].foldl AddGroupsController.addGroup
        { tournament := { title := some "Cup", description := some "" } }) "abcd" names N t ∧
      Paired N names.length ∧
      ∃ document c, t.store = some ("abcd", document) ∧
        ({ gameCode := "abcd", host := true } : BracketController).deliver document = some c ∧
        ShowsPairs c t :=
  padding_and_pairing _ _ _ _ (by decide)

end Tourni
