/-
WebAssembly as the tools of the repository see it: structured instructions with relative labels,
the lists of what a module imports and exports, and the flat operator stream of a function body.
-/
import Xahc.Data.Bytes

namespace Xahc.Wasm

/-! ## Types and values -/

/-- The number types. -/
inductive ValType
  | i32 | i64 | f32 | f64
  deriving DecidableEq, Repr

/-- A number of one of the four types; the floating ones by their bits. -/
inductive Value
  | i32 (n : UInt32)
  | i64 (n : UInt64)
  | f32 (bits : UInt32)
  | f64 (bits : UInt64)
  deriving DecidableEq, Repr

/-- The type of a value. -/
def Value.type : Value → ValType
  | .i32 _ => .i32
  | .i64 _ => .i64
  | .f32 _ => .f32
  | .f64 _ => .f64

/-- The type of a function. -/
structure FuncType where
  params : List ValType
  results : List ValType
  deriving DecidableEq, Repr

/-! ## Instructions -/

/-- The instructions of a body. `plain` stands for the instructions that touch neither control nor
calls (arithmetic, locals, globals, memory), of which `π` says which. -/
inductive Instr (π : Type) where
  | const (value : Value)
  | drop
  | call (func : Nat)
  | callIndirect (table : Nat) (type : FuncType)
  | br (label : Nat)
  | brIf (label : Nat)
  | brTable (labels : List Nat) (default : Nat)
  | ret
  | unreachable
  | block (type : FuncType) (body : List (Instr π))
  | loop (type : FuncType) (body : List (Instr π))
  | ifElse (type : FuncType) (consequent alternative : List (Instr π))
  | plain (op : π)
  deriving BEq, Repr

section
variable {π : Type}

/-- `is_branch`: a control transfer or a call. -/
def Instr.isBranch : Instr π → Bool
  | .const _ | .drop | .plain _ => false
  | _ => true

/-- `matches!(instr, Instr::Call(c) if c.func == g)`. -/
def Instr.isCallTo (g : Nat) : Instr π → Bool
  | .call f => f == g
  | _ => false

/-- `matches!(instr, Instr::Drop(_))`. -/
def Instr.isDrop : Instr π → Bool
  | .drop => true
  | _ => false

/-- The value of an `Instr::Const`. -/
def Instr.const? : Instr π → Option Value
  | .const v => some v
  | _ => none

theorem Instr.of_isCallTo {g : Nat} {i : Instr π} (h : i.isCallTo g = true) : i = .call g := by
  cases i <;> simp_all [isCallTo]

theorem Instr.of_isDrop {i : Instr π} (h : i.isDrop = true) : i = .drop := by
  cases i <;> simp_all [isDrop]

theorem Instr.of_const? {i : Instr π} {v : Value} (h : i.const? = some v) : i = .const v := by
  cases i <;> simp_all [const?]

mutual
/-- Whether a call to `g` appears in an instruction, at any depth. -/
def Instr.callsAnywhere (g : Nat) : Instr π → Bool
  | .call f => f == g
  | .block _ body => seqCallsAnywhere g body
  | .loop _ body => seqCallsAnywhere g body
  | .ifElse _ consequent alternative => seqCallsAnywhere g consequent || seqCallsAnywhere g alternative
  | _ => false

/-- `contains_g_anywhere` and `seq_contains_guard_nested`, which walk a sequence alike. -/
def seqCallsAnywhere (g : Nat) : List (Instr π) → Bool
  | [] => false
  | i :: is => i.callsAnywhere g || seqCallsAnywhere g is
end

/-- Induction over instructions, with the hypothesis for every instruction of a nested sequence. -/
theorem Instr.induct {P : Instr π → Prop}
    (plain : ∀ i, (∀ ty body, i ≠ .block ty body) → (∀ ty body, i ≠ .loop ty body) →
      (∀ ty consequent alternative, i ≠ .ifElse ty consequent alternative) → P i)
    (block : ∀ ty body, (∀ i ∈ body, P i) → P (.block ty body))
    (loop : ∀ ty body, (∀ i ∈ body, P i) → P (.loop ty body))
    (ifElse : ∀ ty consequent alternative, (∀ i ∈ consequent, P i) → (∀ i ∈ alternative, P i) →
      P (.ifElse ty consequent alternative)) : ∀ i, P i
  | .block ty body => block ty body fun i _ => Instr.induct plain block loop ifElse i
  | .loop ty body => loop ty body fun i _ => Instr.induct plain block loop ifElse i
  | .ifElse ty consequent alternative => ifElse ty consequent alternative
      (fun i _ => Instr.induct plain block loop ifElse i) fun i _ => Instr.induct plain block loop ifElse i
  | .const _ | .drop | .call _ | .callIndirect _ _ | .br _ | .brIf _ | .brTable _ _ | .ret | .unreachable | .plain _ =>
    plain _ (by simp) (by simp) (by simp)

end

/-! ## Modules -/

/-- What an import is. -/
inductive ImportKind
  | func | table | memory | global | tag
  deriving DecidableEq, Repr

/-- An import of a module. -/
structure Import where
  module : String
  name : String
  kind : ImportKind
  deriving DecidableEq, Repr

/-- What an export is. -/
inductive ExportItem
  | func (index : Nat)
  | table | memory | global | tag
  deriving DecidableEq, Repr

/-- An export of a module. -/
structure Export where
  name : String
  item : ExportItem
  deriving DecidableEq, Repr

/-- The operators of a body in byte order, as far as the flat checks tell them apart; any other one is
its debug text. -/
inductive Operator
  | loop (blockty : String)
  | i32Const (value : Int)
  | call (functionIndex : Nat)
  | other (debug : String)
  deriving DecidableEq, Repr

/-- One code entry: its operators with their byte offsets, and the error that stopped the reader, if
one did. -/
structure Body where
  ops : List (Operator × Nat)
  readError : Option String := none
  deriving DecidableEq, Repr

/-- A function the module defines: its label in messages, its type and its structured body. -/
structure LocalFunction (π : Type) where
  label : String
  type : FuncType
  locals : List ValType
  body : List (Instr π)
  deriving Repr

/-- A binary module as its two readers see it: the import and export lists, the structured local
functions, and the raw code entries, with the payload error that stops the raw reader, if there is
one. -/
structure Module (π : Type) where
  imports : List Import
  exports : List Export
  funcs : List (LocalFunction π)
  bodies : List Body
  payloadError : Option String := none

section
variable {π : Type}

/-- The imported functions, which occupy the low function indices in order. -/
def Module.importedFuncs (m : Module π) : List Import := m.imports.filter fun i => i.kind = .func

/-- `env._g`. -/
def Import.isGuard (i : Import) : Bool := i.module == "env" && i.name == "_g"

/-- Function `f` is an import `env._g`. -/
def Module.IsGuardFunc (m : Module π) (f : Nat) : Prop := ∃ i, m.importedFuncs[f]? = some i ∧ i.isGuard = true

end

end Xahc.Wasm
