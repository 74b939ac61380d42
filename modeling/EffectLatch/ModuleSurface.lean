import EffectLatch.ModuleScan
import Mathlib.Algebra.Order.BigOperators.Group.List

/-!
# The modules a runtime accepts

A module is accepted exactly when it declares the five imports, one bounded
memory, the two exports and nothing beyond the limits.
-/

namespace EffectLatch

namespace Wasm

section Declared

variable (declared : List Declaration)

/-- The declared function type with an index. -/
def TypeAt (index : UInt32) (type : FuncType) : Prop :=
  (types declared)[index.toNat]? = some (.func type)

/-- A module with exactly the surface of the ABI. -/
structure ImplementsAbi : Prop where
  core : ∀ encoding, .encoding encoding ∈ declared → encoding = .module
  functionTypes : ∀ inner ∈ types declared, ∃ type, inner = .func type
  typeCount : (types declared).length ≤ 1024
  importNames : ((imports declared).map fun entry =>
    (entry.module, entry.name)).Perm
      (abi.map fun function => ("effectlatch_v1", function.1))
  importTypes : ∀ entry ∈ imports declared, ∃ typeIndex type,
    entry.ty = .func typeIndex ∧ (entry.name, type) ∈ abi ∧
      TypeAt declared typeIndex type
  memory : ∃ memory, memories declared = [memory] ∧ BoundedMemory memory
  globalTypes : ∀ content ∈ globals declared,
    content = .i32 ∨ content = .i64
  globalCount : (globals declared).length ≤ 32
  surface : ∃ runIndex typeIndex,
    (exports declared).Perm
      [⟨"memory", .memory, 0⟩, ⟨"run", .func, runIndex⟩] ∧
    (imports declared).length ≤ runIndex.toNat ∧
    (functions declared)[runIndex.toNat - (imports declared).length]? =
      some typeIndex ∧
    TypeAt declared typeIndex ⟨[], [.i32]⟩
  functionCount : (functions declared).length ≤ 1024
  bodyCount : (bodies declared).length ≤ 1024
  segmentCount : (segments declared).sum ≤ 256
  allowed : .forbidden ∉ declared

/-- What a validated module declares: it was read to its end, there is one data
section at most, and the sizes given ahead are right. -/
structure Consistent : Prop where
  readable : .unreadable ∉ declared
  single : (segments declared).length ≤ 1
  bodyCount : ∀ count, .bodies count ∈ declared →
    count.toNat = (bodies declared).length
  segmentCount : ∀ count, .segmentsAhead count ∈ declared →
    count.toNat = (segments declared).sum

end Declared

/-- What the runtime relies on in the other crate. -/
def Reader.Lawful (reader : Reader) : Prop :=
  ∀ bytes, reader.validateAll bytes = true →
    Consistent (declarations (reader.parseAll bytes))

variable {declared : List Declaration}

/-- The checks after the loop, in terms of what was declared. -/
structure Finished (declared : List Declaration) : Prop where
  importCount : (imports declared).length = 5
  memoryCount : (memories declared).length = 1
  memoryExport : (summary declared).memoryExport = some 0
  importTypes : ∀ entry ∈ imports declared, ∃ typeIndex type,
    entry.ty = .func typeIndex ∧ (entry.name, type) ∈ abi ∧
      TypeAt declared typeIndex type
  run : ∃ runIndex typeIndex,
    (summary declared).runExport = some runIndex ∧
    (imports declared).length ≤ runIndex.toNat ∧
    (functions declared)[runIndex.toNat - (imports declared).length]? =
      some typeIndex ∧
    TypeAt declared typeIndex ⟨[], [.i32]⟩

theorem Scanned.signature_eq_ok_iff (scanned : Scanned declared)
    {index : UInt32} {type : FuncType} :
    signature (summary declared).types index = .ok type ↔
      TypeAt declared index type := by
  rw [signature, Except.fetch_eq_ok_iff, TypeAt, scanned.types_eq,
    List.getElem?_map]
  cases (summary declared).types[index.toNat]? <;> simp

theorem Scanned.checkImport_eq_ok_iff (scanned : Scanned declared)
    {name : String} {typeIndex : UInt32} :
    (summary declared).checkImport (name, typeIndex) = .ok () ↔
      ∃ type, (name, type) ∈ abi ∧ TypeAt declared typeIndex type := by
  have sameType (type : FuncType) (params results : List ValType) :
      (¬ (type.params ≠ params ∨ type.results ≠ results)) ↔
        type = ⟨params, results⟩ := by
    cases type
    simp
  simp only [Scan.checkImport, Except.bind_eq_ok_iff,
    Except.fetch_eq_ok_iff, Except.require_eq_ok_iff,
    scanned.signature_eq_ok_iff, Prod.exists, expected_eq_some_iff, sameType]
  constructor
  · rintro ⟨params, results, named, type, declared, rfl⟩
    exact ⟨_, named, declared⟩
  · rintro ⟨⟨params, results⟩, named, declared⟩
    exact ⟨params, results, named, _, declared, rfl⟩

/-- Every import has an entry in the map, and its signature is checked. -/
theorem Scanned.checkImports_iff (scanned : Scanned declared) :
    (summary declared).imports.forM (summary declared).checkImport = .ok () ↔
      ∀ entry ∈ imports declared, ∃ typeIndex type,
        entry.ty = .func typeIndex ∧ (entry.name, type) ∈ abi ∧
          TypeAt declared typeIndex type := by
  rw [Except.forM_eq_ok_iff]
  simp only [summary, List.mem_filterMap, forall_exists_index, and_imp]
  constructor
  · intro checked entry member
    obtain ⟨_, _, typeIndex, typed⟩ := scanned.shapes _ (mem_imports.mp member)
    have found := checked (entry.name, typeIndex) entry member
      (by simp [Import.typed, typed])
    obtain ⟨type, named, declared⟩ := scanned.checkImport_eq_ok_iff.mp found
    exact ⟨typeIndex, type, typed, named, declared⟩
  · rintro typed ⟨name, typeIndex⟩ entry member kept
    obtain ⟨index, type, function, named, declared⟩ := typed entry member
    simp only [Import.typed, function, Option.some.injEq,
      Prod.mk.injEq] at kept
    obtain ⟨rfl, rfl⟩ := kept
    exact scanned.checkImport_eq_ok_iff.mpr ⟨type, named, declared⟩

theorem Scanned.finish_eq_ok_iff (scanned : Scanned declared) :
    (summary declared).finish = .ok () ↔ Finished declared := by
  have entries : (summary declared).imports.length =
      (imports declared).length := by
    have same := congrArg List.length scanned.imports_eq
    rwa [List.length_map, List.length_map] at same
  have run (type : FuncType) :
      (¬ (type.params ≠ [] ∨ type.results ≠ [.i32])) ↔
        type = ⟨[], [.i32]⟩ := by
    cases type
    simp
  simp only [Scan.finish, Except.bind_eq_ok_iff, Except.fetch_eq_ok_iff,
    Except.require_eq_ok_iff, scanned.signature_eq_ok_iff,
    scanned.checkImports_iff, entries, not_or, not_not, run]
  constructor
  · rintro ⟨_, ⟨importCount, memoryCount, memoryExport⟩, _, importTypes,
      runIndex, exported, _, fits, typeIndex, found, type, declared, rfl⟩
    exact ⟨importCount, memoryCount, memoryExport, importTypes, runIndex,
      typeIndex, exported, fits, found, declared⟩
  · intro finished
    obtain ⟨runIndex, typeIndex, exported, fits, found, declared⟩ :=
      finished.run
    exact ⟨(), ⟨finished.importCount, finished.memoryCount,
      finished.memoryExport⟩, (), finished.importTypes, runIndex, exported,
      (), fits, typeIndex, found, _, declared, rfl⟩

/-- With distinct names, an index found under a name is the one exported. -/
theorem indexOf_eq_some_iff {entries : List Export}
    (distinct : (entries.map Export.name).Nodup) {name : String}
    {index : UInt32} :
    entries.findSome? (fun entry => entry.indexOf name) = some index ↔
      ∃ entry ∈ entries, entry.name = name ∧ entry.index = index := by
  induction entries with
  | nil => simp
  | cons first rest ih =>
      rw [List.map_cons, List.nodup_cons] at distinct
      rw [List.findSome?_cons, Export.indexOf]
      by_cases named : first.name = name
      · have alone : ∀ entry ∈ rest, entry.name ≠ name := fun entry member
            same => distinct.1 (List.mem_map.mpr
              ⟨entry, member, same.trans named.symm⟩)
        simp only [named, if_true, Option.some.injEq, List.mem_cons]
        constructor
        · intro same
          exact ⟨first, .inl rfl, named, same⟩
        · rintro ⟨entry, rfl | member, same, index⟩
          · exact index
          · exact absurd same (alone entry member)
      · simp only [named, if_false, ih distinct.2, List.mem_cons]
        constructor
        · rintro ⟨entry, member, found⟩
          exact ⟨entry, .inr member, found⟩
        · rintro ⟨entry, rfl | member, same, index⟩
          · exact absurd same named
          · exact ⟨entry, member, same, index⟩

/-- The exports are the memory and the function to run. -/
theorem Scanned.exports_perm_iff (scanned : Scanned declared)
    {runIndex : UInt32} :
    (exports declared).Perm
        [⟨"memory", .memory, 0⟩, ⟨"run", .func, runIndex⟩] ↔
      (summary declared).memoryExport = some 0 ∧
        (summary declared).runExport = some runIndex := by
  have found (name : String) (index : UInt32) :
      (exports declared).findSome? (fun entry => entry.indexOf name) =
          some index ↔
        ∃ entry ∈ exports declared, entry.name = name ∧ entry.index = index :=
    indexOf_eq_some_iff scanned.exportNames
  simp only [summary]
  constructor
  · intro same
    exact ⟨(found _ _).mpr ⟨_, same.mem_iff.mpr (.head _), rfl, rfl⟩,
      (found _ _).mpr ⟨_, same.mem_iff.mpr (.tail _ (.head _)), rfl, rfl⟩⟩
  · rintro ⟨memory, run⟩
    have listed : ([⟨"memory", .memory, 0⟩, ⟨"run", .func, runIndex⟩] :
        List Export).Nodup := by
      simp
    have shape {entry : Export} (member : entry ∈ exports declared) :
        entry.name = "run" ∧ entry.kind = .func ∨
          entry.name = "memory" ∧ entry.kind = .memory :=
      scanned.shapes _ (mem_exports.mp member)
    rw [List.perm_ext_iff_of_nodup (.of_map _ scanned.exportNames) listed]
    rintro ⟨name, kind, index⟩
    simp only [List.mem_cons, List.not_mem_nil, or_false]
    constructor
    · intro member
      have exported := (found name index).mpr ⟨_, member, rfl, rfl⟩
      obtain ⟨rfl, rfl⟩ | ⟨rfl, rfl⟩ := shape member
      · obtain rfl := Option.some.inj (exported.symm.trans run)
        exact .inr rfl
      · obtain rfl := Option.some.inj (exported.symm.trans memory)
        exact .inl rfl
    · rintro (same | same) <;> rw [same]
      · obtain ⟨⟨name, kind, index⟩, member, rfl, rfl⟩ := (found _ _).mp memory
        obtain ⟨other, _⟩ | ⟨_, rfl⟩ := shape member
        · simp at other
        · exact member
      · obtain ⟨⟨name, kind, index⟩, member, rfl, rfl⟩ := (found _ _).mp run
        obtain ⟨_, rfl⟩ | ⟨other, _⟩ := shape member
        · exact member
        · simp at other

/-- A module that passed the loop and the checks has the surface of the
ABI. -/
theorem implementsAbi_of_finished (consistent : Consistent declared)
    (scanned : Scanned declared) (finished : Finished declared) :
    ImplementsAbi declared where
  core encoding member := scanned.shapes _ member
  functionTypes inner member := scanned.shapes _ (mem_types.mp member)
  typeCount := scanned.typeCount
  importNames := by
    have modules : ((imports declared).map fun entry =>
        (entry.module, entry.name)) =
          ((imports declared).map Import.name).map fun name =>
            ("effectlatch_v1", name) := by
      rw [List.map_map]
      refine List.map_congr_left fun entry member => ?_
      obtain ⟨module, _⟩ := scanned.shapes _ (mem_imports.mp member)
      rw [module]
      rfl
    have known : (imports declared).map Import.name ⊆ abi.map Prod.fst :=
      scanned.imports_subset
    have all : ((imports declared).map Import.name).Perm (abi.map Prod.fst) := by
      apply (List.subperm_of_subset scanned.importNames known).perm_of_length_le
      rw [List.length_map, List.length_map, finished.importCount]
      rfl
    rw [modules]
    exact all.map _
  importTypes := finished.importTypes
  memory := by
    obtain ⟨memory, alone⟩ := List.length_eq_one_iff.mp finished.memoryCount
    refine ⟨memory, alone, scanned.shapes _ (mem_memories.mp ?_)⟩
    rw [alone]
    exact .head _
  globalTypes content member := scanned.shapes _ (mem_globals.mp member)
  globalCount := scanned.globalCount
  surface := by
    obtain ⟨runIndex, typeIndex, exported, rest⟩ := finished.run
    exact ⟨runIndex, typeIndex,
      scanned.exports_perm_iff.mpr ⟨finished.memoryExport, exported⟩, rest⟩
  functionCount := scanned.functionCount
  bodyCount := scanned.bodyCount
  segmentCount := by
    have bounded : ∀ size ∈ segments declared, size ≤ 256 := by
      intro size member
      obtain ⟨count, declared, rfl⟩ := mem_segments.mp member
      exact scanned.shapes _ declared
    have single := consistent.single
    match listed : segments declared with
    | [] => exact Nat.zero_le 256
    | [size] =>
        rw [List.sum_singleton]
        exact bounded size (listed ▸ List.mem_singleton_self size)
    | _ :: _ :: _ => simp [listed] at single
  allowed member := scanned.shapes _ member

theorem scanned_of_implementsAbi (consistent : Consistent declared)
    (surface : ImplementsAbi declared) : Scanned declared where
  shapes := by
    intro declaration member
    cases declaration with
    | encoding encoding => exact surface.core encoding member
    | type inner => exact surface.functionTypes inner (mem_types.mpr member)
    | imported entry =>
        have member := mem_imports.mpr member
        obtain ⟨typeIndex, type, typed, named, _⟩ :=
          surface.importTypes entry member
        have listed := surface.importNames.mem_iff.mp
          (List.mem_map_of_mem member)
        obtain ⟨_, _, same⟩ := List.mem_map.mp listed
        exact ⟨(congrArg Prod.fst same).symm, ⟨type, named⟩, typeIndex, typed⟩
    | memory type =>
        obtain ⟨memory, alone, bounded⟩ := surface.memory
        have member := mem_memories.mpr member
        rw [alone] at member
        exact List.mem_singleton.mp member ▸ bounded
    | global content => exact surface.globalTypes content (mem_globals.mpr member)
    | exported entry =>
        obtain ⟨runIndex, _, same, _⟩ := surface.surface
        have member := same.mem_iff.mp (mem_exports.mpr member)
        simp only [List.mem_cons, List.not_mem_nil, or_false] at member
        rcases member with rfl | rfl
        · exact .inr ⟨rfl, rfl⟩
        · exact .inl ⟨rfl, rfl⟩
    | bodies count =>
        change count.toNat ≤ 1024
        rw [consistent.bodyCount count member]
        exact surface.bodyCount
    | segments count =>
        have member := mem_segments.mpr ⟨count, member, rfl⟩
        exact (List.le_sum_of_mem member).trans surface.segmentCount
    | segmentsAhead count =>
        change count.toNat ≤ 256
        rw [consistent.segmentCount count member]
        exact surface.segmentCount
    | function _ | body => trivial
    | forbidden => exact surface.allowed member
    | unreadable => exact consistent.readable member
  typeCount := surface.typeCount
  functionCount := surface.functionCount
  memoryCount := by
    obtain ⟨memory, alone, _⟩ := surface.memory
    rw [alone, List.length_singleton]
    decide
  globalCount := surface.globalCount
  bodyCount := surface.bodyCount
  importNames := by
    have names : (imports declared).map Import.name =
        ((imports declared).map fun entry => (entry.module, entry.name)).map
          Prod.snd := by
      rw [List.map_map]
      rfl
    rw [names, (surface.importNames.map Prod.snd).nodup_iff]
    decide
  exportNames := by
    obtain ⟨runIndex, _, same, _⟩ := surface.surface
    rw [(same.map Export.name).nodup_iff]
    simp

theorem finished_of_implementsAbi (scanned : Scanned declared)
    (surface : ImplementsAbi declared) : Finished declared := by
  obtain ⟨runIndex, typeIndex, same, run⟩ := surface.surface
  obtain ⟨memoryExport, runExport⟩ := scanned.exports_perm_iff.mp same
  obtain ⟨memory, alone, _⟩ := surface.memory
  refine ⟨?_, ?_, memoryExport, surface.importTypes, runIndex, typeIndex,
    runExport, run⟩
  · have count := surface.importNames.length_eq
    rwa [List.length_map] at count
  · rw [alone, List.length_singleton]

/-- The validator accepts exactly the modules with the surface of the ABI. -/
theorem module_accepted_iff (reader : Reader) (lawful : reader.Lawful)
    (bytes : List UInt8) :
    validate reader bytes = .ok () ↔
      bytes ≠ [] ∧ bytes.length ≤ moduleBytes ∧
        reader.validateAll bytes = true ∧
        ImplementsAbi (declarations (reader.parseAll bytes)) := by
  simp only [validate, Except.bind_eq_ok_iff, Except.require_eq_ok_iff,
    Scan.payloads_eq, scan_eq_ok_iff, not_or, not_lt]
  constructor
  · rintro ⟨_, ⟨nonempty, sized⟩, _, valid, _, ⟨scanned, rfl⟩, done⟩
    exact ⟨nonempty, sized, valid, implementsAbi_of_finished
      (lawful bytes valid) scanned (scanned.finish_eq_ok_iff.mp done)⟩
  · rintro ⟨nonempty, sized, valid, surface⟩
    have scanned := scanned_of_implementsAbi (lawful bytes valid) surface
    exact ⟨(), ⟨nonempty, sized⟩, (), valid, _, ⟨scanned, rfl⟩,
      scanned.finish_eq_ok_iff.mpr (finished_of_implementsAbi scanned surface)⟩

end Wasm

namespace Sample

open Wasm

def importBytes (name : String) (typeIndex : UInt8) : List UInt8 :=
  14 :: utf8 "effectlatch_v1" ++
    (UInt8.ofNat name.length :: utf8 name) ++ [0, typeIndex]

/-- A module that imports the ABI and whose `run` returns zero. -/
def guestModule : List UInt8 :=
  [0, 97, 115, 109, 1, 0, 0, 0] ++
    [1, 19, 3, 96, 0, 1, 127, 96, 2, 127, 127, 1, 127, 96, 4, 127, 127, 127,
      127, 1, 127] ++
    [2, 136, 1, 5] ++ importBytes "input_len" 0 ++
    importBytes "input_read" 1 ++ importBytes "effect_call" 2 ++
    importBytes "output_write" 1 ++ importBytes "log" 1 ++
    [3, 2, 1, 0] ++ [5, 5, 1, 1, 1, 128, 8] ++
    [7, 16, 2, 6] ++ utf8 "memory" ++ [2, 0, 3] ++ utf8 "run" ++ [0, 5] ++
    [10, 6, 1, 4, 0, 65, 0, 11]

def guestPayloads : List (Item Payload) :=
  [some (.version .module),
    some (.typeSection [some [.func ⟨[], [.i32]⟩],
      some [.func ⟨[.i32, .i32], [.i32]⟩],
      some [.func ⟨[.i32, .i32, .i32, .i32], [.i32]⟩]]),
    some (.importSection [some ⟨"effectlatch_v1", "input_len", .func 0⟩,
      some ⟨"effectlatch_v1", "input_read", .func 1⟩,
      some ⟨"effectlatch_v1", "effect_call", .func 2⟩,
      some ⟨"effectlatch_v1", "output_write", .func 1⟩,
      some ⟨"effectlatch_v1", "log", .func 1⟩]),
    some (.functionSection [some 0]),
    some (.memorySection [some ⟨false, false, 1, some 1024, none⟩]),
    some (.exportSection [some ⟨"memory", .memory, 0⟩,
      some ⟨"run", .func, 5⟩]),
    some (.codeSectionStart 1), some .codeSectionEntry, some .end]

/-- What the other crate answers on the module of the sample. -/
def moduleReader : Reader where
  validateAll bytes := decide (bytes = guestModule)
  parseAll bytes := if bytes = guestModule then guestPayloads else [none]

theorem moduleReader_lawful : moduleReader.Lawful := by
  intro bytes valid
  have same : bytes = guestModule := of_decide_eq_true valid
  have parsed : moduleReader.parseAll bytes = guestPayloads := if_pos same
  rw [parsed]
  constructor
  · decide +kernel
  · decide +kernel
  · intro count member
    simp [declarations, guestPayloads, payloadDeclarations,
      groupDeclarations, Declaration.ofItem] at member
    rw [member]
    decide +kernel
  · intro count member
    simp [declarations, guestPayloads, payloadDeclarations,
      groupDeclarations, Declaration.ofItem] at member

end Sample

namespace Wasm

theorem module_accepted_iff_sample :
    ImplementsAbi (declarations
      (Sample.moduleReader.parseAll Sample.guestModule)) :=
  ((module_accepted_iff Sample.moduleReader Sample.moduleReader_lawful
    Sample.guestModule).mp
      (Except.eq_ok_of_toOption (by decide +kernel))).2.2.2

end Wasm

end EffectLatch
