import EffectLatch.GuardedFolds
import EffectLatch.RuntimeValidate
import Mathlib.Data.List.Perm.Subperm

/-!
# The loop over the payloads of a module

What a module declares is the sequence of the items of its sections.  The loop
over its payloads is a fold over these declarations.  It ends well exactly when
every declaration is of an allowed shape, numbers are bounded and names
distinct; its variables then sum up what was declared.
-/

namespace EffectLatch

namespace Wasm

inductive Declaration where
  | encoding (encoding : Encoding)
  | type (inner : CompositeInnerType)
  | imported (entry : Import)
  | function (typeIndex : UInt32)
  | memory (type : MemoryType)
  | global (content : ValType)
  | exported (entry : Export)
  | bodies (count : UInt32)
  | body
  | segments (count : UInt32)
  | segmentsAhead (count : UInt32)
  | forbidden
  | unreadable
deriving DecidableEq

/-- An item of a section as a declaration. -/
def Declaration.ofItem {α : Type} (declare : α → Declaration) :
    Item α → Declaration
  | some item => declare item
  | none => .unreadable

def groupDeclarations : Item (List CompositeInnerType) → List Declaration
  | some group => group.map .type
  | none => [.unreadable]

def payloadDeclarations : Item Payload → List Declaration
  | none => [.unreadable]
  | some payload =>
      match payload with
      | .version encoding => [.encoding encoding]
      | .typeSection groups => groups.flatMap groupDeclarations
      | .importSection imports =>
          imports.map (Declaration.ofItem .imported)
      | .functionSection indices =>
          indices.map (Declaration.ofItem .function)
      | .memorySection memories => memories.map (Declaration.ofItem .memory)
      | .globalSection contents => contents.map (Declaration.ofItem .global)
      | .exportSection exports => exports.map (Declaration.ofItem .exported)
      | .codeSectionStart count => [.bodies count]
      | .codeSectionEntry => [.body]
      | .dataSection count => [.segments count]
      | .dataCountSection count => [.segmentsAhead count]
      | .customSection | .end => []
      | .tableSection | .elementSection | .startSection | .other =>
          [.forbidden]

/-- All a module declares. -/
def declarations (payloads : List (Item Payload)) : List Declaration :=
  payloads.flatMap payloadDeclarations

namespace Declaration

@[simp]
def type? : Declaration → Option CompositeInnerType
  | .type inner => some inner
  | _ => none

@[simp]
def import? : Declaration → Option Import
  | .imported entry => some entry
  | _ => none

@[simp]
def function? : Declaration → Option UInt32
  | .function typeIndex => some typeIndex
  | _ => none

@[simp]
def memory? : Declaration → Option MemoryType
  | .memory bounds => some bounds
  | _ => none

@[simp]
def global? : Declaration → Option ValType
  | .global content => some content
  | _ => none

@[simp]
def export? : Declaration → Option Export
  | .exported entry => some entry
  | _ => none

@[simp]
def body? : Declaration → Option Unit
  | .body => some ()
  | _ => none

@[simp]
def segments? : Declaration → Option Nat
  | .segments count => some count.toNat
  | _ => none

end Declaration

section Declared

variable (declared : List Declaration)

def types : List CompositeInnerType :=
  declared.filterMap Declaration.type?

def imports : List Import :=
  declared.filterMap Declaration.import?

def functions : List UInt32 :=
  declared.filterMap Declaration.function?

def memories : List MemoryType :=
  declared.filterMap Declaration.memory?

def globals : List ValType :=
  declared.filterMap Declaration.global?

def exports : List Export :=
  declared.filterMap Declaration.export?

def bodies : List Unit :=
  declared.filterMap Declaration.body?

/-- The sizes of the data sections. -/
def segments : List Nat :=
  declared.filterMap Declaration.segments?

/-- The functions a module imports, with their types. -/
def abi : List (String × FuncType) :=
  [("input_len", ⟨[], [.i32]⟩),
    ("input_read", ⟨[.i32, .i32], [.i32]⟩),
    ("output_write", ⟨[.i32, .i32], [.i32]⟩),
    ("log", ⟨[.i32, .i32], [.i32]⟩),
    ("effect_call", ⟨[.i32, .i32, .i32, .i32], [.i32]⟩)]

end Declared

/-- A memory of 32-bit addresses with bounded size. -/
structure BoundedMemory (memory : MemoryType) : Prop where
  memory64 : memory.memory64 = false
  shared : memory.shared = false
  pageSize : memory.pageSizeLog2 = none
  initial : memory.initial ≤ 1024
  maximum : ∃ maximum, memory.maximum = some maximum ∧ maximum ≤ 1024

variable {declared seen : List Declaration} {scan final : Scan}

/-- One declaration in the loop. -/
def Scan.declaration (scan : Scan) : Declaration → Except InvalidModule Scan
  | .encoding .module => pure scan
  | .encoding .component => .error ⟨⟩
  | .type inner => scan.subtype inner
  | .imported entry => scan.imported (some entry)
  | .function typeIndex => scan.function (some typeIndex)
  | .memory type => scan.memory (some type)
  | .global content => scan.global (some content)
  | .exported entry => scan.exported (some entry)
  | .bodies count => scan.sized 1024 count
  | .body => scan.body
  | .segments count => scan.sized 256 count
  | .segmentsAhead count => scan.sized 256 count
  | .forbidden | .unreadable => .error ⟨⟩

theorem Scan.group_eq (scan : Scan)
    (group : Item (List CompositeInnerType)) :
    scan.group group = (groupDeclarations group).foldlM declaration scan := by
  cases group with
  | none => rfl
  | some group =>
      rw [groupDeclarations, List.foldlM_map]
      rfl

theorem Scan.function_eq (scan : Scan) (index : Item UInt32) :
    scan.function index =
      scan.declaration (Declaration.ofItem .function index) := by
  cases index with
  | some index => rfl
  | none =>
      rw [function]
      by_cases room : scan.localTypeIndices.length < 1024
      · rw [Except.require_of room]
        rfl
      · rw [Except.require, if_neg room]
        rfl

/-- A loop over the items of a section. -/
theorem Scan.items_eq {α : Type} {step : Scan → Item α →
    Except InvalidModule Scan} {declare : α → Declaration}
    (same : ∀ scan item, step scan item =
      declaration scan (.ofItem declare item))
    (items : List (Item α)) (scan : Scan) :
    items.foldlM step scan =
      (items.map (Declaration.ofItem declare)).foldlM declaration scan := by
  rw [List.foldlM_map]
  congr 1
  funext scan item
  exact same scan item

theorem Scan.groups_eq (groups : List (Item (List CompositeInnerType)))
    (scan : Scan) :
    groups.foldlM group scan =
      (groups.flatMap groupDeclarations).foldlM declaration scan := by
  induction groups generalizing scan with
  | nil => rfl
  | cons first rest ih =>
      rw [List.foldlM_cons, group_eq, List.flatMap_cons, List.foldlM_append]
      exact bind_congr ih

theorem Scan.single_eq (scan : Scan) (declared : Declaration) :
    scan.declaration declared = [declared].foldlM declaration scan := by
  rw [List.foldlM_cons]
  exact (bind_pure _).symm

/-- A payload is scanned declaration by declaration. -/
theorem Scan.payload_eq (scan : Scan) (payload : Item Payload) :
    scan.payload payload =
      (payloadDeclarations payload).foldlM declaration scan := by
  cases payload with
  | none => rfl
  | some payload =>
      cases payload with
      | version encoding => cases encoding <;> rfl
      | typeSection groups => exact groups_eq groups scan
      | importSection imports =>
          exact items_eq (fun _ item => by cases item <;> rfl) imports scan
      | functionSection indices => exact items_eq function_eq indices scan
      | memorySection memories =>
          exact items_eq (fun _ item => by cases item <;> rfl) memories scan
      | globalSection contents =>
          exact items_eq (fun _ item => by cases item <;> rfl) contents scan
      | exportSection exports =>
          exact items_eq (fun _ item => by cases item <;> rfl) exports scan
      | codeSectionStart count => exact single_eq scan (.bodies count)
      | codeSectionEntry => exact single_eq scan .body
      | dataSection count => exact single_eq scan (.segments count)
      | dataCountSection count => exact single_eq scan (.segmentsAhead count)
      | tableSection | startSection | elementSection | customSection | «end»
      | other => rfl

theorem Scan.payloads_eq (scan : Scan) (payloads : List (Item Payload)) :
    payloads.foldlM payload scan =
      (declarations payloads).foldlM declaration scan := by
  induction payloads generalizing scan with
  | nil => rfl
  | cons first rest ih =>
      rw [List.foldlM_cons, payload_eq, declarations, List.flatMap_cons,
        List.foldlM_append]
      exact bind_congr ih

theorem expected_eq_some_iff {name : String}
    {params results : List ValType} :
    expected name = some (params, results) ↔
      (name, ⟨params, results⟩) ∈ abi := by
  unfold expected
  split
  next same =>
    subst same
    simp [abi, eq_comm]
  next length =>
    split
    next memory =>
      rcases memory with rfl | rfl | rfl <;> simp [abi, eq_comm]
    next memory =>
      rw [not_or, not_or] at memory
      split
      next same =>
        subst same
        simp [abi, eq_comm]
      next call => simp [abi, length, memory, call]

def CompositeInnerType.func? : CompositeInnerType → Option FuncType
  | .func type => some type
  | .other => none

/-- The entry of an import in the map. -/
def Import.typed (entry : Import) : Option (String × UInt32) :=
  match entry.ty with
  | .func typeIndex => some (entry.name, typeIndex)
  | .other => none

/-- The index exported under a name. -/
def Export.indexOf (entry : Export) (name : String) : Option UInt32 :=
  if entry.name = name then some entry.index else none

/-- The variables of the loop after a list of declarations. -/
def summary (declared : List Declaration) : Scan where
  types := (types declared).filterMap CompositeInnerType.func?
  imports := (imports declared).filterMap Import.typed
  importedFunctions := (imports declared).length
  localTypeIndices := functions declared
  memories := (memories declared).length
  globals := (globals declared).length
  codeBodies := (bodies declared).length
  runExport := (exports declared).findSome? fun entry => entry.indexOf "run"
  memoryExport := (exports declared).findSome? fun entry =>
    entry.indexOf "memory"

/-- What is asked of a declaration by itself. -/
def Shape : Declaration → Prop
  | .encoding encoding => encoding = .module
  | .type inner => ∃ type, inner = .func type
  | .imported entry => entry.module = "effectlatch_v1" ∧
      (∃ type, (entry.name, type) ∈ abi) ∧
      ∃ typeIndex, entry.ty = .func typeIndex
  | .memory type => BoundedMemory type
  | .global content => content = .i32 ∨ content = .i64
  | .exported entry => entry.name = "run" ∧ entry.kind = .func ∨
      entry.name = "memory" ∧ entry.kind = .memory
  | .bodies count => count.toNat ≤ 1024
  | .segments count | .segmentsAhead count => count.toNat ≤ 256
  | .function _ | .body => True
  | .forbidden | .unreadable => False

/-- What the loop asks of a declaration after others. -/
def Allowed (seen : List Declaration) (declared : Declaration) : Prop :=
  Shape declared ∧
  (declared.type?.isSome = true →
    (seen.filterMap Declaration.type?).length < 1024) ∧
  (declared.function?.isSome = true →
    (seen.filterMap Declaration.function?).length < 1024) ∧
  (declared.memory?.isSome = true →
    (seen.filterMap Declaration.memory?).length < 2 ^ 32 - 1) ∧
  (declared.global?.isSome = true →
    (seen.filterMap Declaration.global?).length < 32) ∧
  (declared.body?.isSome = true →
    (seen.filterMap Declaration.body?).length < 1024) ∧
  (∀ name, declared.import?.map Import.name = some name →
    name ∉ seen.filterMap fun other => other.import?.map Import.name) ∧
  (∀ name, declared.export?.map Export.name = some name →
    name ∉ seen.filterMap fun other => other.export?.map Export.name)

/-- What the loop asks of all declarations together. -/
structure Scanned (declared : List Declaration) : Prop where
  shapes : ∀ declaration ∈ declared, Shape declaration
  typeCount : (types declared).length ≤ 1024
  functionCount : (functions declared).length ≤ 1024
  memoryCount : (memories declared).length ≤ 2 ^ 32 - 1
  globalCount : (globals declared).length ≤ 32
  bodyCount : (bodies declared).length ≤ 1024
  importNames : ((imports declared).map Import.name).Nodup
  exportNames : ((exports declared).map Export.name).Nodup

theorem guarded_iff : Guarded Allowed declared ↔ Scanned declared := by
  unfold Allowed
  rw [Guarded.and_iff, Guarded.and_iff, Guarded.and_iff, Guarded.and_iff,
    Guarded.and_iff, Guarded.and_iff, Guarded.and_iff, Guarded.forall_iff,
    Guarded.bounded_iff, Guarded.bounded_iff, Guarded.bounded_iff,
    Guarded.bounded_iff, Guarded.bounded_iff, Guarded.nodup_iff,
    Guarded.nodup_iff, ← List.map_filterMap, ← List.map_filterMap]
  constructor
  · rintro ⟨shapes, types, functions, memories, globals, bodies, importNames,
      exportNames⟩
    exact ⟨shapes, types, functions, memories, globals, bodies, importNames,
      exportNames⟩
  · intro scanned
    exact ⟨scanned.shapes, scanned.typeCount, scanned.functionCount,
      scanned.memoryCount, scanned.globalCount, scanned.bodyCount,
      scanned.importNames, scanned.exportNames⟩

/-- What a kind of declaration keeps is what was declared of it. -/
theorem mem_filterMap_kind {α : Type} {kind : Declaration → Option α}
    {declare : α → Declaration}
    (kept : ∀ declaration value,
      kind declaration = some value ↔ declaration = declare value)
    {value : α} : value ∈ declared.filterMap kind ↔ declare value ∈ declared := by
  simp only [List.mem_filterMap, kept, exists_eq_right]

theorem mem_types {inner : CompositeInnerType} :
    inner ∈ types declared ↔ .type inner ∈ declared :=
  mem_filterMap_kind fun declaration value => by cases declaration <;> simp

theorem mem_imports {entry : Import} :
    entry ∈ imports declared ↔ .imported entry ∈ declared :=
  mem_filterMap_kind fun declaration value => by cases declaration <;> simp

theorem mem_memories {type : MemoryType} :
    type ∈ memories declared ↔ .memory type ∈ declared :=
  mem_filterMap_kind fun declaration value => by cases declaration <;> simp

theorem mem_globals {content : ValType} :
    content ∈ globals declared ↔ .global content ∈ declared :=
  mem_filterMap_kind fun declaration value => by cases declaration <;> simp

theorem mem_exports {entry : Export} :
    entry ∈ exports declared ↔ .exported entry ∈ declared :=
  mem_filterMap_kind fun declaration value => by cases declaration <;> simp

theorem mem_segments {size : Nat} :
    size ∈ segments declared ↔
      ∃ count, .segments count ∈ declared ∧ count.toNat = size := by
  simp only [segments, List.mem_filterMap]
  constructor
  · rintro ⟨declaration, member, found⟩
    cases declaration with
    | segments count => exact ⟨count, member, Option.some.inj found⟩
    | _ => simp at found
  · rintro ⟨count, member, rfl⟩
    exact ⟨_, member, rfl⟩

/-- Only the functions of the ABI are imported. -/
theorem Scanned.imports_subset (scanned : Scanned declared) :
    (imports declared).map Import.name ⊆ abi.map Prod.fst := by
  intro name member
  obtain ⟨entry, imported, rfl⟩ := List.mem_map.mp member
  obtain ⟨_, ⟨type, named⟩, _⟩ := scanned.shapes _ (mem_imports.mp imported)
  exact List.mem_map.mpr ⟨_, named, rfl⟩

theorem Scanned.imports_le (scanned : Scanned declared) :
    (imports declared).length ≤ 5 := by
  have few := (List.subperm_of_subset scanned.importNames
    scanned.imports_subset).length_le
  rwa [List.length_map] at few

/-- The loop keeps every type. -/
theorem Scanned.types_eq (scanned : Scanned declared) :
    types declared = (summary declared).types.map .func := by
  have kept : ∀ inner ∈ types declared,
      inner.func?.map CompositeInnerType.func = some inner := by
    intro inner member
    obtain ⟨type, rfl⟩ := scanned.shapes _ (mem_types.mp member)
    rfl
  rw [summary, List.map_filterMap, List.filterMap_congr kept]
  exact List.filterMap_some.symm

/-- The map of imports has an entry for each. -/
theorem Scanned.imports_eq (scanned : Scanned declared) :
    (summary declared).imports.map Prod.fst =
      (imports declared).map Import.name := by
  have kept : ∀ entry ∈ imports declared,
      entry.typed.map Prod.fst = some entry.name := by
    intro entry member
    obtain ⟨_, _, typeIndex, type⟩ :=
      scanned.shapes _ (mem_imports.mp member)
    rw [Import.typed, type]
    rfl
  rw [summary, List.map_filterMap, List.filterMap_congr kept,
    List.filterMap_eq_map']

theorem lookup_isSome_iff {entries : List (String × UInt32)}
    {name : String} :
    (entries.lookup name).isSome = true ↔ name ∈ entries.map Prod.fst := by
  induction entries with
  | nil => simp
  | cons entry rest ih =>
      obtain ⟨key, value⟩ := entry
      by_cases same : name = key
      · simp [same]
      · rw [List.lookup_cons, beq_eq_false_iff_ne.mpr same]
        simp only [ih, List.map_cons, List.mem_cons, same, false_or]

theorem indexOf_isNone_iff {name : String} {entries : List Export} :
    entries.findSome? (fun entry => entry.indexOf name) = none ↔
      name ∉ entries.map Export.name := by
  simp [Export.indexOf, List.findSome?_eq_none_iff]

theorem boundedMemory_iff {memory : MemoryType} :
    BoundedMemory memory ↔
      ¬ (memory.memory64 = true ∨ memory.shared = true ∨
        memory.pageSizeLog2.isSome = true ∨ 1024 < memory.initial ∨
        memory.maximum.all (fun maximum => decide (1024 < maximum)) = true) := by
  have maximum : (¬ memory.maximum.all
      (fun maximum => decide (1024 < maximum)) = true) ↔
      ∃ maximum, memory.maximum = some maximum ∧ maximum ≤ 1024 := by
    cases memory.maximum <;> simp
  simp only [not_or, maximum, Bool.not_eq_true, Option.isSome_eq_false_iff,
    Option.isNone_iff_eq_none, UInt64.not_lt]
  constructor
  · intro bounded
    exact ⟨bounded.memory64, bounded.shared, bounded.pageSize,
      bounded.initial, bounded.maximum⟩
  · rintro ⟨memory64, shared, pageSize, initial, maximum⟩
    exact ⟨memory64, shared, pageSize, initial, maximum⟩

/-- The variables after one more declaration. -/
def Scan.add (scan : Scan) : Declaration → Scan
  | .type inner => { scan with types := scan.types ++ inner.func?.toList }
  | .imported entry =>
      { scan with
        imports := scan.imports ++ entry.typed.toList
        importedFunctions := scan.importedFunctions + 1 }
  | .function typeIndex =>
      { scan with
        localTypeIndices := scan.localTypeIndices ++ [typeIndex] }
  | .memory _ => { scan with memories := scan.memories + 1 }
  | .global _ => { scan with globals := scan.globals + 1 }
  | .body => { scan with codeBodies := scan.codeBodies + 1 }
  | .exported entry =>
      { scan with
        runExport := scan.runExport.or (entry.indexOf "run")
        memoryExport := scan.memoryExport.or (entry.indexOf "memory") }
  | .encoding _ | .bodies _ | .segments _ | .segmentsAhead _ | .forbidden
  | .unreadable => scan

theorem summary_concat (seen : List Declaration) (declaration : Declaration) :
    summary (seen ++ [declaration]) = (summary seen).add declaration := by
  unfold summary types imports functions memories globals bodies exports
  simp only [List.filterMap_append, List.findSome?_append, List.length_append]
  cases declaration with
  | type inner =>
      cases inner <;>
        simp [Scan.add, List.filterMap_cons, CompositeInnerType.func?]
  | imported entry =>
      cases typed : entry.typed <;>
        simp [Scan.add, List.filterMap_cons, typed]
  | exported entry =>
      have one (name : String) :
          [entry].findSome? (fun entry => entry.indexOf name) =
            entry.indexOf name := by
        rw [List.findSome?_cons]
        cases entry.indexOf name <;> rfl
      simp [Scan.add, List.filterMap_cons, one]
  | _ => simp [Scan.add, List.filterMap_cons]

theorem Scan.subtype_eq_ok_iff {inner : CompositeInnerType} :
    scan.subtype inner = .ok final ↔ (∃ type, inner = .func type) ∧
      scan.types.length < 1024 ∧ final = scan.add (.type inner) := by
  cases inner with
  | other => simp [subtype]
  | func type =>
      rw [subtype, Except.require_bind_eq_ok_iff, Except.pure_eq_ok_iff]
      simp [add, CompositeInnerType.func?, eq_comm]

theorem checkedSucc_bind_eq_ok_iff {count : Nat}
    {next : Nat → Except InvalidModule Scan} :
    (checkedSucc count >>= next) = .ok final ↔
      count + 1 < 2 ^ 32 ∧ next (count + 1) = .ok final := by
  rw [checkedSucc, bind_assoc, Except.require_bind_eq_ok_iff, pure_bind]

theorem Scan.imported_eq_ok_iff {entry : Import} :
    scan.imported (some entry) = .ok final ↔
      Shape (.imported entry) ∧ entry.name ∉ scan.imports.map Prod.fst ∧
      scan.importedFunctions + 1 < 2 ^ 32 ∧
      final = scan.add (.imported entry) := by
  have known : (¬ expected entry.name = none) ↔
      ∃ type, (entry.name, type) ∈ abi := by
    rw [← ne_eq, Option.ne_none_iff_exists']
    constructor
    · rintro ⟨⟨params, results⟩, found⟩
      exact ⟨_, expected_eq_some_iff.mp found⟩
    · rintro ⟨⟨params, results⟩, named⟩
      exact ⟨_, expected_eq_some_iff.mpr named⟩
  rw [imported, Except.fetch_some, Except.ok_bind_eq]
  cases typed : entry.ty with
  | other => simp [Shape, typed]
  | func typeIndex =>
      have added : scan.add (.imported entry) = { scan with
          imports := scan.imports ++ [(entry.name, typeIndex)]
          importedFunctions := scan.importedFunctions + 1 } := by
        simp [add, Import.typed, typed]
      dsimp only
      rw [Except.require_bind_eq_ok_iff, checkedSucc_bind_eq_ok_iff,
        Except.pure_eq_ok_iff, not_or, not_or, not_not, lookup_isSome_iff,
        known, added]
      constructor
      · rintro ⟨⟨module, named, fresh⟩, room, rfl⟩
        exact ⟨⟨module, named, typeIndex, typed⟩, fresh, room, rfl⟩
      · rintro ⟨⟨module, named, _⟩, fresh, room, rfl⟩
        exact ⟨⟨module, named, fresh⟩, room, rfl⟩

theorem Scan.memory_eq_ok_iff {type : MemoryType} :
    scan.memory (some type) = .ok final ↔ BoundedMemory type ∧
      scan.memories + 1 < 2 ^ 32 ∧ final = scan.add (.memory type) := by
  rw [memory, boundedMemory_iff]
  change (checkedSucc scan.memories >>= _) = _ ↔ _
  rw [checkedSucc_bind_eq_ok_iff, Except.require_bind_eq_ok_iff,
    Except.pure_eq_ok_iff, and_left_comm, eq_comm (b := final)]
  rfl

theorem Scan.global_eq_ok_iff {content : ValType} :
    scan.global (some content) = .ok final ↔
      (content = .i32 ∨ content = .i64) ∧ scan.globals < 32 ∧
        final = scan.add (.global content) := by
  rw [global, Except.fetch_some, Except.ok_bind_eq,
    checkedSucc_bind_eq_ok_iff, Except.require_bind_eq_ok_iff,
    Except.pure_eq_ok_iff, not_or, not_not]
  constructor
  · rintro ⟨_, ⟨room, content⟩, rfl⟩
    exact ⟨content, by omega, rfl⟩
  · rintro ⟨content, room, rfl⟩
    exact ⟨by omega, ⟨by omega, content⟩, rfl⟩

theorem Scan.exported_eq_ok_iff {entry : Export} :
    scan.exported (some entry) = .ok final ↔ Shape (.exported entry) ∧
      (entry.name = "run" → scan.runExport = none) ∧
      (entry.name = "memory" → scan.memoryExport = none) ∧
      final = scan.add (.exported entry) := by
  obtain ⟨name, kind, index⟩ := entry
  rw [exported, Except.fetch_some, Except.ok_bind_eq]
  cases kind with
  | func =>
      dsimp only
      rw [Except.require_bind_eq_ok_iff, Except.pure_eq_ok_iff]
      constructor
      · rintro ⟨⟨rfl, fresh⟩, rfl⟩
        simp [Shape, add, Export.indexOf, fresh]
      · rintro ⟨shape, fresh, _, rfl⟩
        obtain ⟨rfl, _⟩ | ⟨_, other⟩ := shape
        · simp [add, Export.indexOf, fresh]
        · simp at other
  | memory =>
      dsimp only
      rw [Except.require_bind_eq_ok_iff, Except.pure_eq_ok_iff]
      constructor
      · rintro ⟨⟨rfl, fresh⟩, rfl⟩
        simp [Shape, add, Export.indexOf, fresh]
      · rintro ⟨shape, _, fresh, rfl⟩
        obtain ⟨_, other⟩ | ⟨rfl, _⟩ := shape
        · simp at other
        · simp [add, Export.indexOf, fresh]
  | table | global | tag => simp [Shape]

theorem Scan.body_eq_ok_iff :
    scan.body = .ok final ↔
      scan.codeBodies < 1024 ∧ final = scan.add .body := by
  rw [body, checkedSucc_bind_eq_ok_iff, Except.require_bind_eq_ok_iff,
    Except.pure_eq_ok_iff]
  constructor
  · rintro ⟨_, room, rfl⟩
    exact ⟨by omega, rfl⟩
  · rintro ⟨room, rfl⟩
    exact ⟨by omega, by omega, rfl⟩

theorem Scan.sized_eq_ok_iff {limit : Nat} {count : UInt32} :
    scan.sized limit count = .ok final ↔
      count.toNat ≤ limit ∧ final = scan := by
  rw [sized, Except.require_bind_eq_ok_iff, Except.pure_eq_ok_iff]
  exact and_congr_right fun _ => eq_comm

theorem Scan.function_eq_ok_iff {typeIndex : UInt32} :
    scan.function (some typeIndex) = .ok final ↔
      scan.localTypeIndices.length < 1024 ∧
        final = scan.add (.function typeIndex) := by
  rw [function, Except.require_bind_eq_ok_iff, Except.fetch_some,
    Except.ok_bind_eq, Except.pure_eq_ok_iff]
  exact and_congr_right fun _ => eq_comm

/-- The loop admits a declaration exactly when it is allowed after those
before. -/
theorem declaration_eq_ok_iff {declaration : Declaration}
    (guarded : Guarded Allowed seen) :
    (summary seen).declaration declaration = .ok final ↔
      Allowed seen declaration ∧ final = summary (seen ++ [declaration]) := by
  have scanned := guarded_iff.mp guarded
  rw [summary_concat]
  cases declaration with
  | encoding encoding =>
      cases encoding with
      | module =>
          rw [Scan.declaration, Except.pure_eq_ok_iff]
          simp [Allowed, Shape, Scan.add, eq_comm]
      | component => simp [Scan.declaration, Allowed, Shape]
  | type inner =>
      have length : (summary seen).types.length =
          (seen.filterMap Declaration.type?).length := by
        rw [← types, scanned.types_eq, List.length_map]
      rw [Scan.declaration, Scan.subtype_eq_ok_iff, length]
      simp [Allowed, Shape, and_assoc]
  | imported entry =>
      have few := scanned.imports_le
      have room : (summary seen).importedFunctions + 1 < 2 ^ 32 := by
        change (imports seen).length + 1 < _
        omega
      rw [Scan.declaration, Scan.imported_eq_ok_iff, scanned.imports_eq]
      simp only [room, true_and]
      simp [Allowed, imports, List.map_filterMap, and_assoc]
  | function typeIndex =>
      rw [Scan.declaration, Scan.function_eq_ok_iff]
      simp [Allowed, Shape, summary, functions]
  | memory type =>
      have room : (summary seen).memories + 1 < 2 ^ 32 ↔
          (seen.filterMap Declaration.memory?).length < 2 ^ 32 - 1 := by
        change (memories seen).length + 1 < _ ↔ (memories seen).length < _
        omega
      rw [Scan.declaration, Scan.memory_eq_ok_iff, room]
      simp [Allowed, Shape, and_assoc]
  | global content =>
      rw [Scan.declaration, Scan.global_eq_ok_iff]
      simp [Allowed, Shape, and_assoc, summary, globals]
  | exported entry =>
      have unseen : Allowed seen (.exported entry) ↔ Shape (.exported entry) ∧
          entry.name ∉ (exports seen).map Export.name := by
        simp [Allowed, exports, List.map_filterMap]
      have lookup (name : String) :
          (exports seen).findSome? (fun entry => entry.indexOf name) = none ↔
            name ∉ (exports seen).map Export.name := indexOf_isNone_iff
      rw [Scan.declaration, Scan.exported_eq_ok_iff, unseen, and_assoc]
      apply and_congr_right
      intro shape
      change (_ → (exports seen).findSome? _ = none) ∧
        (_ → (exports seen).findSome? _ = none) ∧ _ ↔ _
      rw [lookup, lookup]
      obtain ⟨run, _⟩ | ⟨memory, _⟩ := shape
      · simp [run]
      · simp [memory]
  | bodies count | segments count | segmentsAhead count =>
      rw [Scan.declaration, Scan.sized_eq_ok_iff]
      simp [Allowed, Shape, Scan.add]
  | body =>
      rw [Scan.declaration, Scan.body_eq_ok_iff]
      simp [Allowed, Shape, summary, bodies]
  | forbidden | unreadable => simp [Scan.declaration, Allowed, Shape]

/-- The loop, and its variables afterwards. -/
theorem scan_eq_ok_iff :
    declared.foldlM Scan.declaration Scan.start = .ok final ↔
      Scanned declared ∧ final = summary declared := by
  rw [← guarded_iff]
  exact foldlM_eq_ok_iff declaration_eq_ok_iff declared

end Wasm

end EffectLatch
