/-
Module: HftAlgorithms.MarketData.PositionsFile
Purpose: The characters of the positions file, as `save_positions` writes them and
  as the extractions of `load_positions` read them, and the program that is stopped
  and started with that file between its calls.
Trusted boundary: none
Main exports: SymbolManager.savedText, extractLine, SymbolManager.loadText,
  SymbolManager.loadFile, ProgramStep, SymbolManager.runProgram
-/
import HftAlgorithms.Lib.NumberStream
import HftAlgorithms.MarketData.SymbolManager

namespace HftAlgorithms

open DecimalText NumberStream

/-- `f << id << " " << pos << "\n"` -/
def lineText (line : UInt32 × Int32) : List Char :=
  toText line.1.toNat ++ ' ' :: toText line.2.toInt ++ ['\n']

/-- `f >> id >> pos` -/
def extractLine (text : List Char) : Option ((UInt32 × Int32) × List Char) :=
  match extract fitUInt32 text with
  | none => none
  | some (id, rest) =>
      (extract fitInt32 rest).map fun (pos, rest) => ((id, pos), rest)

/-- A line that is read is used up. -/
theorem length_extractLine_lt {text rest : List Char} {line : UInt32 × Int32}
    (read : extractLine text = some (line, rest)) : rest.length < text.length := by
  rw [extractLine] at read
  split at read
  · cases read
  · rename_i id middle first
    obtain ⟨⟨pos, last⟩, second, same⟩ := Option.map_eq_some_iff.mp read
    cases same
    exact (length_extract_lt second).trans (length_extract_lt first)

namespace SymbolManager

/-- The loop of `save_positions` over some ids. -/
def linesText (manager : SymbolManager) (ids : List UInt32) : List Char :=
  ids.flatMap fun id =>
    let pos := manager.getPosition id
    if pos ≠ 0 then lineText (id, pos) else []

/-- The characters that `save_positions` writes. -/
def savedText (manager : SymbolManager) : List Char :=
  manager.linesText symbolList

/-- The loop of `load_positions`: up to the first id or position that cannot be read. -/
def loadText (manager : SymbolManager) (text : List Char) : SymbolManager :=
  match _read : extractLine text with
  | none => manager
  | some (line, rest) => (manager.loadPosition line).loadText rest
termination_by text.length
decreasing_by exact length_extractLine_lt _read

/-- `load_positions`: without a file nothing is loaded. -/
def loadFile (manager : SymbolManager) : Option (List Char) → SymbolManager
  | none => manager
  | some text => manager.loadText text

/-- The handler of `SIGINT` saves, and `main` loads into a fresh manager. -/
def restartFromFile (manager : SymbolManager) : SymbolManager :=
  SymbolManager.empty.loadFile (some manager.savedText)

end SymbolManager

/-! ### The program over its restarts -/

/-- A call of one of the program's threads, or a stop and a start. -/
inductive ProgramStep where
  | call (made : SymbolCall)
  | stopAndStart
deriving DecidableEq, Repr

namespace ProgramStep

def next (manager : SymbolManager) : ProgramStep → SymbolManager
  | .call made => manager.next made
  | .stopAndStart => manager.restartFromFile

/-- The calls among some steps. -/
def calls (steps : List ProgramStep) : List SymbolCall :=
  steps.filterMap fun
    | .call made => some made
    | .stopAndStart => none

end ProgramStep

/-- Started without a file. -/
def SymbolManager.runProgram (steps : List ProgramStep) : SymbolManager :=
  steps.foldl ProgramStep.next (SymbolManager.empty.loadFile none)

end HftAlgorithms
