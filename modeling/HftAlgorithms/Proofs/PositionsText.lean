/-
Module: HftAlgorithms.Proofs.PositionsText
Purpose: The positions file as characters.  What was saved is loaded line by line, so
  the positions go through any number of restarts; of a file that was cut anywhere,
  the symbols before the cut are exact, those behind it are flat, and the one at the
  cut is nowhere beyond its saved position.
Trusted boundary: none
Main exports: SymbolManager.loadText_lines, SymbolManager.restartFromFile_eq,
  SymbolManager.getPosition_runProgram, SymbolManager.positions_of_cut_file
-/
import HftAlgorithms.MarketData.PositionsFile
import HftAlgorithms.Proofs.RestartedPositions

namespace HftAlgorithms

open DecimalText NumberStream StateMachine

/-! ### Lines -/

theorem noDigit_cons {char : Char} (other : char.isDigit = false) (text : List Char) :
    NoDigit (char :: text) := by
  intro first head
  cases head
  exact other

theorem extractLine_space {char : Char} (space : isSpace char = true) (text : List Char) :
    extractLine (char :: text) = extractLine text := by
  simp [extractLine, extract_space space]

/-- An id that was written whole, and what is left to be read of its line. -/
theorem extractLine_id (id : UInt32) (text : List Char) :
    extractLine (toText id.toNat ++ ' ' :: text) =
      (extract fitInt32 text).map fun (pos, rest) => ((id, pos), rest) := by
  have ends : NoDigit (' ' :: text) := noDigit_cons (by decide) text
  have space : isSpace ' ' = true := by decide
  simp [extractLine, extract_toText (fitUInt32_toNat id) ends, extract_space space]

theorem extractLine_lineText (line : UInt32 × Int32) (text : List Char) :
    extractLine (lineText line ++ text) = some (line, '\n' :: text) := by
  have ends : NoDigit ('\n' :: text) := noDigit_cons (by decide) text
  have split : lineText line ++ text =
      toText line.1.toNat ++ ' ' :: (toText line.2.toInt ++ '\n' :: text) := by
    simp [lineText]
  rw [split, extractLine_id, extract_toText (fitInt32_toInt line.2) ends]
  rfl

namespace SymbolManager

theorem loadText_none {text : List Char} (ends : extractLine text = none)
    (manager : SymbolManager) : manager.loadText text = manager := by
  rw [loadText]
  split
  · rfl
  · rename_i read
    cases ends.symm.trans read

theorem loadText_some {text rest : List Char} {line : UInt32 × Int32}
    (read : extractLine text = some (line, rest)) (manager : SymbolManager) :
    manager.loadText text = (manager.loadPosition line).loadText rest := by
  rw [loadText]
  split
  · rename_i ends
    cases ends.symm.trans read
  · rename_i other _ found
    cases found.symm.trans read
    rfl

theorem loadText_nil (manager : SymbolManager) : manager.loadText [] = manager :=
  loadText_none rfl manager

theorem loadText_space {char : Char} (space : isSpace char = true) (manager : SymbolManager)
    (text : List Char) : manager.loadText (char :: text) = manager.loadText text := by
  have same := extractLine_space space text
  cases read : extractLine text with
  | none => rw [loadText_none read, loadText_none (same.trans read)]
  | some found => rw [loadText_some read, loadText_some (same.trans read)]

/-- The lines that were written are loaded one by one, whatever stands behind them. -/
theorem loadText_lines (manager : SymbolManager) (lines : List (UInt32 × Int32))
    (text : List Char) :
    manager.loadText (lines.flatMap lineText ++ text) =
      (manager.loadPositions lines).loadText text := by
  induction lines generalizing manager with
  | nil => rfl
  | cons line lines inductionHypothesis =>
      have newline : isSpace '\n' = true := by decide
      rw [List.flatMap_cons, List.append_assoc, loadText_some (extractLine_lineText line _),
        loadText_space newline, inductionHypothesis]
      rfl

@[simp] theorem linesText_nil (manager : SymbolManager) : manager.linesText [] = [] := rfl

theorem linesText_flat {manager : SymbolManager} {id : UInt32} (flat : manager.getPosition id = 0)
    (ids : List UInt32) : manager.linesText (id :: ids) = manager.linesText ids := by
  simp [linesText, flat]

theorem linesText_open {manager : SymbolManager} {id : UInt32} (held : manager.getPosition id ≠ 0)
    (ids : List UInt32) :
    manager.linesText (id :: ids) =
      lineText (id, manager.getPosition id) ++ manager.linesText ids := by
  simp [linesText, held]

/-- The lines of some ids. -/
def openLines (manager : SymbolManager) (ids : List UInt32) : List (UInt32 × Int32) :=
  (ids.map fun id => (id, manager.getPosition id)).filter fun line => line.2 ≠ 0

theorem openLines_flat {manager : SymbolManager} {id : UInt32} (flat : manager.getPosition id = 0)
    (ids : List UInt32) : manager.openLines (id :: ids) = manager.openLines ids := by
  simp [openLines, flat]

theorem openLines_open {manager : SymbolManager} {id : UInt32} (held : manager.getPosition id ≠ 0)
    (ids : List UInt32) :
    manager.openLines (id :: ids) = (id, manager.getPosition id) :: manager.openLines ids := by
  simp [openLines, held]

theorem linesText_eq (manager : SymbolManager) (ids : List UInt32) :
    manager.linesText ids = (manager.openLines ids).flatMap lineText := by
  induction ids with
  | nil => rfl
  | cons id ids inductionHypothesis =>
      by_cases flat : manager.getPosition id = 0
      · rw [linesText_flat flat, openLines_flat flat, inductionHypothesis]
      · rw [linesText_open flat, openLines_open flat, List.flatMap_cons, inductionHypothesis]

/-- Through the characters of the file a restart is one through its lines. -/
theorem restartFromFile_eq (manager : SymbolManager) :
    manager.restartFromFile = manager.restart := by
  have lines := loadText_lines .empty manager.savePositions []
  have saved : manager.savedText = manager.savePositions.flatMap lineText :=
    manager.linesText_eq symbolList
  rw [List.append_nil, ← saved, loadText_nil] at lines
  exact lines

end SymbolManager

/-! ### Any number of restarts -/

/-- What a call adds to the position of a symbol. -/
def SymbolCall.moves (symbol : UInt32) : SymbolCall → Int32
  | .onFill id side qty _ =>
      if symbol = id then if side = .BUY then qty.toInt32 else -qty.toInt32 else 0
  | _ => 0

namespace SymbolManager

theorem getPosition_onBookMsg (manager : SymbolManager) (id symbol : UInt32) (msg : BookMsg) :
    (manager.onBookMsg id msg).getPosition symbol = manager.getPosition symbol := by
  by_cases own : symbol = id
  · subst own
    simp [onBookMsg, setSlot, getPosition, SymbolSlot.flushTopOfBook]
  · simp [onBookMsg, setSlot, getPosition, own]

theorem getPosition_next (manager : SymbolManager) (made : SymbolCall) (symbol : UInt32) :
    (manager.next made).getPosition symbol = manager.getPosition symbol + made.moves symbol := by
  cases made with
  | onNewOrder id msg =>
      exact (getPosition_onBookMsg manager id symbol _).trans (Int32.add_zero _).symm
  | onDeleteOrder id msg =>
      exact (getPosition_onBookMsg manager id symbol _).trans (Int32.add_zero _).symm
  | onModifyOrder id msg =>
      exact (getPosition_onBookMsg manager id symbol _).trans (Int32.add_zero _).symm
  | onTrade id msg =>
      exact (getPosition_onBookMsg manager id symbol _).trans (Int32.add_zero _).symm
  | resetBook id =>
      by_cases own : symbol = id
      · subst own
        simp [SymbolManager.next, SymbolCall.moves, resetBook, setSlot, getPosition]
      · simp [SymbolManager.next, SymbolCall.moves, resetBook, setSlot, getPosition, own]
  | onFill id side qty price =>
      rw [SymbolManager.next, getPosition_onFill, SymbolCall.moves]
      by_cases own : symbol = id
      · subst own
        cases side <;> simp [movedPosition, Int32.sub_eq_add_neg]
      · simp [own]

theorem getPosition_programStep (manager : SymbolManager) {symbol : UInt32}
    (known : symbol ∈ symbolIds) (step : ProgramStep) :
    (ProgramStep.next manager step).getPosition symbol =
      manager.getPosition symbol +
        ((ProgramStep.calls [step]).map (SymbolCall.moves symbol)).sum := by
  cases step with
  | call made => simp [ProgramStep.next, ProgramStep.calls, getPosition_next]
  | stopAndStart =>
      simp [ProgramStep.next, ProgramStep.calls, restartFromFile_eq, getPosition_restart _ known]

/-- However often the program is stopped and started, the position of each of its symbols is the
sum of all that was ever bought less all that was sold. -/
theorem getPosition_runProgram (steps : List ProgramStep) {symbol : UInt32}
    (known : symbol ∈ symbolIds) :
    (runProgram steps).getPosition symbol =
      ((ProgramStep.calls steps).map (SymbolCall.moves symbol)).sum := by
  have onward : ∀ manager : SymbolManager,
      (steps.foldl ProgramStep.next manager).getPosition symbol =
        manager.getPosition symbol +
          ((ProgramStep.calls steps).map (SymbolCall.moves symbol)).sum := by
    induction steps with
    | nil =>
        intro manager
        exact (Int32.add_zero _).symm
    | cons step steps inductionHypothesis =>
        intro manager
        have apart : ProgramStep.calls (step :: steps) =
            ProgramStep.calls [step] ++ ProgramStep.calls steps := by
          rw [ProgramStep.calls, ProgramStep.calls, ProgramStep.calls, ← List.filterMap_append]
          rfl
        rw [List.foldl_cons, inductionHypothesis, getPosition_programStep manager known, apart,
          List.map_append, List.sum_append, Int32.add_assoc]
  exact (onward _).trans (Int32.zero_add _)

/-- Bought, restarted, sold in part, restarted. -/
theorem getPosition_runProgram_twoRestarts :
    (runProgram [.call (.onFill 3 .BUY 5 100), .stopAndStart, .call (.onFill 3 .SELL 2 110),
      .stopAndStart]).getPosition 3 = 3 :=
  (getPosition_runProgram [.call (.onFill 3 .BUY 5 100), .stopAndStart,
    .call (.onFill 3 .SELL 2 110), .stopAndStart] (by decide)).trans (by decide)

/-! ### A file that was cut -/

/-- Of a line that was cut before its end nothing is loaded, or its id with a position between zero
and its own. -/
theorem loadText_cut_line (manager : SymbolManager) {line : UInt32 × Int32} {cut : List Char}
    (cuts : cut <+: lineText line) :
    manager.loadText cut = manager ∨
      ∃ part : Int32, part.toInt ∈ Set.uIcc 0 line.2.toInt ∧
        manager.loadText cut = manager.loadPosition (line.1, part) := by
  have nothing : extractLine cut = none → manager.loadText cut = manager :=
    fun ends => loadText_none ends manager
  rw [lineText, List.append_assoc] at cuts
  rcases List.prefix_or_prefix_of_prefix cuts (List.prefix_append _ _) with within | ⟨rest, rfl⟩
  · -- cut within the id
    left
    apply nothing
    rw [extractLine]
    split
    · rfl
    · rename_i id rest read
      rw [(extract_cut within read).1]
      rfl
  · rw [List.prefix_append_right_inj, List.cons_append, List.prefix_cons_iff] at cuts
    rcases cuts with rfl | ⟨rest, rfl, cuts⟩
    · -- cut behind the id
      left
      apply nothing
      have ends : NoDigit [] := fun _ none => by cases none
      rw [extractLine, extract_toText (fitUInt32_toNat line.1) ends]
      rfl
    · rcases List.prefix_concat_iff.mp cuts with rfl | within
      · -- only the end of the file is missing
        right
        refine ⟨line.2, Set.right_mem_uIcc, ?_⟩
        have newline : isSpace '\n' = true := by decide
        have whole := loadText_some (extractLine_lineText line []) manager
        rw [loadText_space newline, loadText_nil, lineText, List.append_nil, List.append_assoc,
          List.cons_append] at whole
        exact whole
      · cases read : extract fitInt32 rest with
        | none =>
            left
            apply nothing
            rw [extractLine_id, read]
            rfl
        | some found =>
            right
            obtain ⟨part, last⟩ := found
            obtain ⟨rfl, value, between, fits⟩ := extract_cut within read
            have loaded : extractLine (toText line.1.toNat ++ ' ' :: rest) =
                some ((line.1, part), []) := by
              rw [extractLine_id, read]
              rfl
            refine ⟨part, ?_, ?_⟩
            · rw [toInt_of_fitInt32 fits]
              exact between
            · rw [loadText_some loaded, loadText_nil]

/-- Wherever the lines of some ids were cut, those before the cut are loaded, and of the one at the
cut at most a part. -/
theorem loadText_cut (saved : SymbolManager) (ids : List UInt32) (manager : SymbolManager)
    {cut : List Char} (cuts : cut <+: saved.linesText ids) :
    ∃ before after, ids = before ++ after ∧ saved.linesText before <+: cut ∧
      cut <+: saved.linesText (before ++ after.take 1) ∧
      (manager.loadText cut = manager.loadPositions (saved.openLines before) ∨
        ∃ last ∈ after.take 1, ∃ part : Int32,
          part.toInt ∈ Set.uIcc 0 (saved.getPosition last).toInt ∧
          manager.loadText cut =
            (manager.loadPositions (saved.openLines before)).loadPosition (last, part)) := by
  induction ids generalizing manager cut with
  | nil =>
      have none : cut = [] := List.prefix_nil.mp cuts
      subst none
      exact ⟨[], [], rfl, List.prefix_rfl, List.prefix_rfl, Or.inl (loadText_nil manager)⟩
  | cons id ids inductionHypothesis =>
      by_cases flat : saved.getPosition id = 0
      · rw [linesText_flat flat] at cuts
        obtain ⟨before, after, rfl, least, most, loaded⟩ := inductionHypothesis manager cuts
        refine ⟨id :: before, after, rfl, ?_, ?_, ?_⟩
        · rw [linesText_flat flat]
          exact least
        · rw [List.cons_append, linesText_flat flat]
          exact most
        · rw [openLines_flat flat]
          exact loaded
      · rw [linesText_open flat] at cuts
        have whole := List.prefix_append (lineText (id, saved.getPosition id)) (saved.linesText ids)
        rcases List.prefix_or_prefix_of_prefix cuts whole with within | ⟨rest, rfl⟩
        · refine ⟨[], id :: ids, rfl, List.nil_prefix, ?_, ?_⟩
          · simpa [linesText_open flat] using within
          · rcases loadText_cut_line manager within with none | ⟨part, between, loaded⟩
            · exact Or.inl none
            · exact Or.inr ⟨id, by simp, part, between, loaded⟩
        · rw [List.prefix_append_right_inj] at cuts
          have newline : isSpace '\n' = true := by decide
          obtain ⟨before, after, rfl, least, most, loaded⟩ :=
            inductionHypothesis (manager.loadPosition (id, saved.getPosition id)) cuts
          refine ⟨id :: before, after, rfl, ?_, ?_, ?_⟩
          · rw [linesText_open flat, List.prefix_append_right_inj]
            exact least
          · rw [List.cons_append, linesText_open flat, List.prefix_append_right_inj]
            exact most
          · rw [loadText_some (extractLine_lineText _ rest), loadText_space newline,
              openLines_open flat]
            exact loaded

/-- A positions file that was cut anywhere: the symbols whose lines stand before the cut are loaded
exactly, those behind it are flat, and the one at the cut has a position between zero and the one
that was saved. -/
theorem positions_of_cut_file (manager : SymbolManager) {cut : List Char}
    (cuts : cut <+: manager.savedText) :
    ∃ before after, symbolList = before ++ after ∧ manager.linesText before <+: cut ∧
      cut <+: manager.linesText (before ++ after.take 1) ∧
      let started := SymbolManager.empty.loadFile (some cut)
      (∀ id ∈ before, started.getPosition id = manager.getPosition id) ∧
      (∀ id ∈ after.take 1,
        (started.getPosition id).toInt ∈ Set.uIcc 0 (manager.getPosition id).toInt) ∧
      ∀ id ∈ after.drop 1, started.getPosition id = 0 := by
  obtain ⟨before, after, apart, least, most, loaded⟩ :=
    loadText_cut manager symbolList .empty cuts
  have distinct : (before ++ after).Nodup := by
    rw [← apart]
    decide
  have exact : ∀ id, (SymbolManager.empty.loadPositions (manager.openLines before)).getPosition id =
      if id ∈ before ∧ manager.getPosition id ≠ 0 then manager.getPosition id else 0 :=
    getPosition_load_saved manager before .empty
  have flat_behind : ∀ id ∈ after,
      (SymbolManager.empty.loadPositions (manager.openLines before)).getPosition id = 0 := by
    intro id member
    have apart : id ∉ before := fun twice => List.disjoint_of_nodup_append distinct twice member
    rw [exact, if_neg fun both => apart both.1]
  have exact_before : ∀ id ∈ before,
      (SymbolManager.empty.loadPositions (manager.openLines before)).getPosition id =
        manager.getPosition id := by
    intro id member
    rw [exact]
    by_cases flat : manager.getPosition id = 0
    · rw [flat, ite_self]
    · rw [if_pos ⟨member, flat⟩]
  refine ⟨before, after, apart, least, most, ?_⟩
  intro started
  have read : started = SymbolManager.empty.loadText cut := rfl
  rcases loaded with loaded | ⟨last, member, part, between, loaded⟩
  · rw [read, loaded]
    refine ⟨exact_before, ?_, fun id behind => flat_behind id (List.mem_of_mem_drop behind)⟩
    intro id here
    rw [flat_behind id (List.mem_of_mem_take here), Int32.toInt_zero]
    exact Set.left_mem_uIcc
  · rw [read, loaded]
    cases after with
    | nil => cases member
    | cons first behind =>
        have same : last = first := by simpa using member
        subst same
        rw [List.nodup_append] at distinct
        obtain ⟨-, later, across⟩ := distinct
        refine ⟨?_, ?_, ?_⟩
        · intro id member
          have other : id ≠ last := across id member last (by simp)
          rw [getPosition_loadPosition, if_neg other, exact_before id member]
        · intro id here
          have own : id = last := by simpa using here
          rw [getPosition_loadPosition, if_pos own, own]
          exact between
        · intro id member
          have other : id ≠ last := by
            rintro rfl
            exact (List.nodup_cons.mp later).1 (by simpa using member)
          rw [getPosition_loadPosition, if_neg other]
          exact flat_behind id (List.mem_of_mem_drop member)

/-- `3 -12` cut behind the `1`. -/
theorem positions_of_cut_file_short :
    let manager := SymbolManager.empty.onFill 3 .SELL 12 100
    let cut := ['3', ' ', '-', '1']
    ∃ before after, symbolList = before ++ after ∧ manager.linesText before <+: cut ∧
      cut <+: manager.linesText (before ++ after.take 1) ∧
      let started := SymbolManager.empty.loadFile (some cut)
      (∀ id ∈ before, started.getPosition id = manager.getPosition id) ∧
      (∀ id ∈ after.take 1,
        (started.getPosition id).toInt ∈ Set.uIcc 0 (manager.getPosition id).toInt) ∧
      ∀ id ∈ after.drop 1, started.getPosition id = 0 :=
  positions_of_cut_file (SymbolManager.empty.onFill 3 .SELL 12 100) (by decide)

end SymbolManager

end HftAlgorithms
