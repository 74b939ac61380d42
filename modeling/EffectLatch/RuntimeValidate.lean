import EffectLatch.DomainTypes
import EffectLatch.ExceptResults

/-!
# Validation of guest modules

The bytes of a module are read by another crate, which says whether they are a
valid module and gives its payloads section by section.  The loop over the
payloads and the checks behind it are the runtime's own.
-/

namespace EffectLatch

namespace Wasm

inductive ValType where
  | i32
  | i64
  | f32
  | f64
  | v128
  | ref
deriving DecidableEq

structure FuncType where
  params : List ValType
  results : List ValType
deriving DecidableEq

/-- Other types than functions are not told apart. -/
inductive CompositeInnerType where
  | func (type : FuncType)
  | other
deriving DecidableEq

/-- Other imports than functions are not told apart. -/
inductive TypeRef where
  | func (typeIndex : UInt32)
  | other
deriving DecidableEq

structure Import where
  module : String
  name : String
  ty : TypeRef
deriving DecidableEq

structure MemoryType where
  memory64 : Bool
  shared : Bool
  initial : UInt64
  maximum : Option UInt64
  pageSizeLog2 : Option UInt32
deriving DecidableEq

inductive ExternalKind where
  | func
  | table
  | memory
  | global
  | tag
deriving DecidableEq

structure Export where
  name : String
  kind : ExternalKind
  index : UInt32
deriving DecidableEq

inductive Encoding where
  | module
  | component
deriving DecidableEq

/-- An item of a section, if it could be read. -/
abbrev Item (α : Type) := Option α

/-- A payload with what the checks look at.  Payloads no arm of the loop names
are `other`. -/
inductive Payload where
  | version (encoding : Encoding)
  | typeSection (groups : List (Item (List CompositeInnerType)))
  | importSection (imports : List (Item Import))
  | functionSection (indices : List (Item UInt32))
  | tableSection
  | memorySection (memories : List (Item MemoryType))
  | globalSection (contentTypes : List (Item ValType))
  | exportSection (exports : List (Item Export))
  | startSection
  | elementSection
  | dataCountSection (count : UInt32)
  | codeSectionStart (count : UInt32)
  | codeSectionEntry
  | dataSection (count : UInt32)
  | customSection
  | «end»
  | other

/-- What the other crate says about bytes: whether a validator for WebAssembly
2.0 accepts them, and the payloads its parser gives. -/
structure Reader where
  validateAll : List UInt8 → Bool
  parseAll : List UInt8 → List (Item Payload)

structure InvalidModule where
deriving DecidableEq

def expected (name : String) : Option (List ValType × List ValType) :=
  if name = "input_len" then some ([], [.i32])
  else if name = "input_read" ∨ name = "output_write" ∨ name = "log" then
    some ([.i32, .i32], [.i32])
  else if name = "effect_call" then
    some ([.i32, .i32, .i32, .i32], [.i32])
  else none

def signature (types : List FuncType) (index : UInt32) :
    Except InvalidModule FuncType :=
  Except.fetch types[index.toNat]? ⟨⟩

/-- `u32::checked_add` of one. -/
def checkedSucc (count : Nat) : Except InvalidModule Nat := do
  Except.require (count + 1 < 2 ^ 32) ⟨⟩
  pure (count + 1)

/-- The variables of the loop.  The map of imports is the list of its
entries. -/
structure Scan where
  types : List FuncType
  imports : List (String × UInt32)
  importedFunctions : Nat
  localTypeIndices : List UInt32
  memories : Nat
  globals : Nat
  codeBodies : Nat
  runExport : Option UInt32
  memoryExport : Option UInt32
deriving DecidableEq

namespace Scan

def start : Scan where
  types := []
  imports := []
  importedFunctions := 0
  localTypeIndices := []
  memories := 0
  globals := 0
  codeBodies := 0
  runExport := none
  memoryExport := none

def subtype (scan : Scan) (inner : CompositeInnerType) :
    Except InvalidModule Scan := do
  match inner with
  | .func function =>
      Except.require (scan.types.length < 1024) ⟨⟩
      pure { scan with types := scan.types ++ [function] }
  | .other => .error ⟨⟩

def group (scan : Scan) (group : Item (List CompositeInnerType)) :
    Except InvalidModule Scan := do
  let subtypes ← Except.fetch group ⟨⟩
  subtypes.foldlM subtype scan

def imported (scan : Scan) (entry : Item Import) :
    Except InvalidModule Scan := do
  let entry ← Except.fetch entry ⟨⟩
  match entry.ty with
  | .other => .error ⟨⟩
  | .func typeIndex =>
      Except.require
        (¬ (entry.module ≠ "effectlatch_v1" ∨ expected entry.name = none ∨
          (scan.imports.lookup entry.name).isSome = true)) ⟨⟩
      let importedFunctions ← checkedSucc scan.importedFunctions
      pure { scan with
        imports := scan.imports ++ [(entry.name, typeIndex)]
        importedFunctions := importedFunctions }

def function (scan : Scan) (index : Item UInt32) :
    Except InvalidModule Scan := do
  Except.require (scan.localTypeIndices.length < 1024) ⟨⟩
  let index ← Except.fetch index ⟨⟩
  pure { scan with localTypeIndices := scan.localTypeIndices ++ [index] }

def memory (scan : Scan) (memory : Item MemoryType) :
    Except InvalidModule Scan := do
  let memory ← Except.fetch memory ⟨⟩
  let memories ← checkedSucc scan.memories
  Except.require
    (¬ (memory.memory64 = true ∨ memory.shared = true ∨
      memory.pageSizeLog2.isSome = true ∨ 1024 < memory.initial ∨
      memory.maximum.all (fun maximum => decide (1024 < maximum)) = true)) ⟨⟩
  pure { scan with memories := memories }

def global (scan : Scan) (contentType : Item ValType) :
    Except InvalidModule Scan := do
  let contentType ← Except.fetch contentType ⟨⟩
  let globals ← checkedSucc scan.globals
  Except.require
    (¬ (32 < globals ∨ ¬ (contentType = .i32 ∨ contentType = .i64))) ⟨⟩
  pure { scan with globals := globals }

def exported (scan : Scan) (entry : Item Export) :
    Except InvalidModule Scan := do
  let entry ← Except.fetch entry ⟨⟩
  match entry.kind with
  | .func =>
      Except.require (entry.name = "run" ∧ scan.runExport = none) ⟨⟩
      pure { scan with runExport := some entry.index }
  | .memory =>
      Except.require (entry.name = "memory" ∧ scan.memoryExport = none) ⟨⟩
      pure { scan with memoryExport := some entry.index }
  | _ => .error ⟨⟩

def body (scan : Scan) : Except InvalidModule Scan := do
  let codeBodies ← checkedSucc scan.codeBodies
  Except.require (codeBodies ≤ 1024) ⟨⟩
  pure { scan with codeBodies := codeBodies }

/-- A section of which only the size is looked at. -/
def sized (scan : Scan) (limit : Nat) (count : UInt32) :
    Except InvalidModule Scan := do
  Except.require (count.toNat ≤ limit) ⟨⟩
  pure scan

/-- One round of the loop. -/
def payload (scan : Scan) (payload : Item Payload) :
    Except InvalidModule Scan := do
  match ← Except.fetch payload ⟨⟩ with
  | .version .module => pure scan
  | .version .component => .error ⟨⟩
  | .typeSection groups => groups.foldlM group scan
  | .importSection imports => imports.foldlM imported scan
  | .functionSection indices => indices.foldlM function scan
  | .memorySection memories => memories.foldlM memory scan
  | .globalSection contentTypes => contentTypes.foldlM global scan
  | .tableSection | .elementSection => .error ⟨⟩
  | .exportSection exports => exports.foldlM exported scan
  | .startSection => .error ⟨⟩
  | .codeSectionStart count => scan.sized 1024 count
  | .codeSectionEntry => scan.body
  | .dataSection count => scan.sized 256 count
  | .dataCountSection count => scan.sized 256 count
  | .customSection | .end => pure scan
  | .other => .error ⟨⟩

/-- The signature of an import. -/
def checkImport (scan : Scan) (entry : String × UInt32) :
    Except InvalidModule Unit := do
  let (params, results) ← Except.fetch (expected entry.1) ⟨⟩
  let ty ← signature scan.types entry.2
  Except.require (¬ (ty.params ≠ params ∨ ty.results ≠ results)) ⟨⟩

/-- The checks after the loop. -/
def finish (scan : Scan) : Except InvalidModule Unit := do
  Except.require
    (¬ (scan.imports.length ≠ 5 ∨ scan.memories ≠ 1 ∨
      scan.memoryExport ≠ some 0)) ⟨⟩
  scan.imports.forM scan.checkImport
  let runIndex ← Except.fetch scan.runExport ⟨⟩
  Except.require (scan.importedFunctions ≤ runIndex.toNat) ⟨⟩
  let localIndex := runIndex.toNat - scan.importedFunctions
  let runTypeIndex ← Except.fetch scan.localTypeIndices[localIndex]? ⟨⟩
  let runType ← signature scan.types runTypeIndex
  Except.require (¬ (runType.params ≠ [] ∨ runType.results ≠ [.i32])) ⟨⟩

end Scan

def validate (reader : Reader) (bytes : List UInt8) :
    Except InvalidModule Unit := do
  Except.require (¬ (bytes = [] ∨ moduleBytes < bytes.length)) ⟨⟩
  Except.require (reader.validateAll bytes = true) ⟨⟩
  let scan ← (reader.parseAll bytes).foldlM Scan.payload Scan.start
  scan.finish

end Wasm

end EffectLatch
