import Conform.Shared
import Conform.Value.Text

/-!
Programs over named registers that hold shared values. They make values, take them apart and put
them together, and observe which of them are equal and which are the same node.
-/

namespace Conform.Registers

/-- What a program can do. An instruction that makes or finds a value without a target register
drops it again. -/
inductive Instruction where
  | create (target : Option String) (blueprint : Blueprint)
  | copy (target : Option String) (source : String)
  | list (target : Option String) (sources : List String)
  | record (target : Option String) (sources : List (String × String))
  /-- Looks up an item of a list; a target is written only when there is one. -/
  | item (target : Option String) (source : String) (index : Nat)
  /-- Looks up a field of a record; a target is written only when there is one. -/
  | field (target : Option String) (source : String) (name : String)
  | strictEqual (left right : String)
  | equal (left right : String)
  | sameNode (left right : String)
  | length (source : String)
  | text (source : String)
  | drop (source : String)

inductive Answer where
  | done
  | verdict (holds : Bool)
  | identity (same : Option Bool)
  | length (count : Option Nat)
  | text (text : String)

structure Machine where
  nextStamp : Nat
  registers : Fields Shared none

namespace Machine

def initial : Machine := ⟨0, .nil⟩

def get? (machine : Machine) (register : String) : Option Shared :=
  machine.registers.find? register

def write (machine : Machine) (target : Option String) (value : Shared) : Machine :=
  match target with
  | some register => { machine with registers := machine.registers.insert register value }
  | none => machine

/-- Makes a value and writes it. -/
def writeNew (machine : Machine) (target : Option String) (make : Mint Shared) : Machine :=
  let (value, nextStamp) := make.run machine.nextStamp
  { machine with nextStamp }.write target value

/-- Writes what a look-up found, if it found something. -/
def writeFound (machine : Machine) (target : Option String) (found : Option Shared) : Machine :=
  match found with
  | some value => machine.write target value
  | none => machine

/-- Runs an instruction; absent when it reads a register that holds nothing. -/
def step? (machine : Machine) : Instruction → Option (Answer × Machine)
  | .create target blueprint => some (.done, machine.writeNew target blueprint.build)
  | .copy target source => do
    let value ← machine.get? source
    return (.done, machine.write target value)
  | .list target sources => do
    let items ← sources.mapM machine.get?
    return (.done, machine.writeNew target (Shared.mintList items))
  | .record target sources => do
    let pairs ← sources.mapM fun (name, source) => do return (name, ← machine.get? source)
    return (.done, machine.writeNew target (Shared.mintRecord pairs))
  | .item target source index => do
    let found := (← machine.get? source).item? index
    return (.verdict found.isSome, machine.writeFound target found)
  | .field target source name => do
    let found := (← machine.get? source).field? name
    return (.verdict found.isSome, machine.writeFound target found)
  | .strictEqual left right => do
    return (.verdict ((← machine.get? left).strictEqual (← machine.get? right)), machine)
  | .equal left right => do
    return (.verdict ((← machine.get? left).content.equal (← machine.get? right).content), machine)
  | .sameNode left right => do
    return (.identity ((← machine.get? left).sameNode? (← machine.get? right)), machine)
  | .length source => do
    return (.length (← machine.get? source).length?, machine)
  | .text source => do
    return (.text (← machine.get? source).content.toText, machine)
  | .drop source =>
    some (.verdict (machine.registers.contains source),
      { machine with registers := machine.registers.erase source })

/-- Runs a program from its first instruction on. -/
def run? (machine : Machine) : List Instruction → Option (List Answer × Machine)
  | [] => some ([], machine)
  | instruction :: rest => do
    let (answer, next) ← machine.step? instruction
    let (answers, final) ← next.run? rest
    return (answer :: answers, final)

end Machine

end Conform.Registers
