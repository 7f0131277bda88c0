import A3sBench.TaskSource

/-!
# Closed schemas

A closed schema says of every block of a document, at every level, which labels
and attributes it may have and which blocks may stand in it. `task.acl` has such
a schema, and `validate_task_schema` accepts the documents that conform to it.
-/

namespace A3sBench.Acl

inductive ClosedSchema where
  | mk (labels : Labels) (attributes : List String) (children : List (String × ClosedSchema))

namespace ClosedSchema

def labels : ClosedSchema → Labels
  | .mk labels _ _ => labels

def attributes : ClosedSchema → List String
  | .mk _ attributes _ => attributes

def children : ClosedSchema → List (String × ClosedSchema)
  | .mk _ _ children => children

/-- What the schema says of one block, without the blocks in it. -/
def top (schema : ClosedSchema) : BlockSchema :=
  { attributes := schema.attributes
    children := schema.children.map Prod.fst
    labels := schema.labels }

end ClosedSchema

def Labels.Admit (labels : List String) : Labels → Prop
  | .none => labels = []
  | .exactly count => labels.length = count

/-- Every attribute and every block, at every level, is one the schema lists for
its parent. -/
inductive Conforms : ClosedSchema → Block → Prop where
  | mk {schema : ClosedSchema} {block : Block}
      (labels : schema.labels.Admit block.labels)
      (attributes : ∀ entry ∈ block.attributes, entry.1 ∈ schema.attributes)
      (blocks : ∀ child ∈ block.blocks, child.name ∈ schema.children.map Prod.fst)
      (below : ∀ child ∈ block.blocks, ∀ inner,
        schema.children.lookup child.name = some inner → Conforms inner child) :
      Conforms schema block

theorem validateBlock_ok_iff {block : Block} {context : String} {schema : BlockSchema} :
    validateBlock block context schema = .ok () ↔
      schema.labels.Admit block.labels ∧
        (∀ entry ∈ block.attributes, entry.1 ∈ schema.attributes) ∧
        ∀ child ∈ block.blocks, child.name ∈ schema.children := by
  unfold validateBlock
  cases schema.labels <;>
    simp only [Result.bind_ok_iff, Result.exists_unit_iff, Result.ensure_ok_iff,
      Result.forM_ok_iff, Labels.Admit]

/-- A block conforms when it passes the check of its own level and the blocks in
it conform to what the schema has for their names. -/
theorem conforms_iff (context : String) {schema : ClosedSchema} {block : Block} :
    Conforms schema block ↔ validateBlock block context schema.top = .ok () ∧
      ∀ child ∈ block.blocks, ∀ inner, schema.children.lookup child.name = some inner →
        Conforms inner child := by
  rw [validateBlock_ok_iff]
  constructor
  · rintro ⟨hlabels, hattributes, hblocks, hbelow⟩
    exact ⟨⟨hlabels, hattributes, hblocks⟩, hbelow⟩
  · rintro ⟨⟨hlabels, hattributes, hblocks⟩, hbelow⟩
    exact .mk hlabels hattributes hblocks hbelow

theorem mem_of_lookup {children : List (String × ClosedSchema)} {name : String}
    {inner : ClosedSchema} (h : children.lookup name = some inner) : (name, inner) ∈ children := by
  obtain ⟨before, after, rfl, -⟩ := List.lookup_eq_some_iff.mp h
  exact List.mem_append_right _ List.mem_cons_self

/-- A name that a schema lists has a schema of its own. -/
theorem exists_lookup_of_mem {children : List (String × ClosedSchema)} {name : String}
    (h : name ∈ children.map Prod.fst) : ∃ inner, children.lookup name = some inner := by
  cases hlookup : children.lookup name with
  | some inner => exact ⟨inner, rfl⟩
  | none =>
    obtain ⟨entry, hentry, rfl⟩ := List.mem_map.mp h
    exact absurd rfl (bne_iff_ne.mp (List.lookup_eq_none_iff.mp hlookup entry hentry))

end A3sBench.Acl

namespace A3sBench.TaskSource

open Acl (Block ClosedSchema Conforms Labels)

/-- A block that holds nothing but attributes. -/
def leaf (attributes : List String) : ClosedSchema := .mk .none attributes []

/-- The schema of the root block of `task.acl`. -/
def taskSchema : ClosedSchema :=
  .mk (.exactly 1) ["schema", "version", "name", "category", "description", "tags"]
    [("workspace", .mk .none [] [("oci", leaf ["ref", "platform", "source_path"])]),
      ("work", .mk .none ["network_need", "https_allow_hosts", "cpu_limit", "memory_bytes"]
        [("image", leaf ["ref", "platform"]),
          ("workspace_import", .mk (.exactly 1) ["source_path", "target_path"] [])]),
      ("submission", leaf ["include", "exclude"]),
      ("judge", .mk .none ["asset", "solution_timeout_sec", "cpu_limit", "memory_bytes"]
        [("requirements", leaf ["cohort"])]),
      ("metric", .mk (.exactly 1)
        ["type", "role", "direction", "min", "max", "normalization", "gate",
          "gate_failure_score_basis_points", "solution_failure_value", "public_report"]
        [("measurement", leaf ["warmup_repeats", "measured_repeats", "estimator",
          "outlier_policy", "tolerance"])])]

theorem blockSchema_of_lookup {name : String} {inner : ClosedSchema}
    (h : taskSchema.children.lookup name = some inner) : blockSchema name = .ok inner.top := by
  have hmem := Acl.mem_of_lookup h
  simp only [taskSchema, ClosedSchema.children, List.mem_cons, List.not_mem_nil, or_false] at hmem
  rcases hmem with hmem | hmem | hmem | hmem | hmem <;> cases hmem <;> rfl

/-- What the schema has for a block two levels down. -/
theorem nestedAttributes_of_lookup {parent name : String} {inner innermost : ClosedSchema}
    (hparent : taskSchema.children.lookup parent = some inner)
    (h : inner.children.lookup name = some innermost) :
    ∃ attributes, nestedAttributes name = .ok attributes ∧
      innermost = .mk (if name = "workspace_import" then .exactly 1 else .none) attributes [] := by
  have hmem := Acl.mem_of_lookup hparent
  have hname := Acl.mem_of_lookup h
  simp only [taskSchema, ClosedSchema.children, List.mem_cons, List.not_mem_nil, or_false] at hmem
  rcases hmem with hmem | hmem | hmem | hmem | hmem <;> cases hmem <;>
    simp only [leaf, ClosedSchema.children, List.mem_cons, List.not_mem_nil, or_false] at hname
  · cases hname
    exact ⟨_, rfl, rfl⟩
  · rcases hname with hname | hname <;> cases hname <;> exact ⟨_, rfl, rfl⟩
  · cases hname
    exact ⟨_, rfl, rfl⟩
  · cases hname
    exact ⟨_, rfl, rfl⟩

theorem validateNested_ok_iff {block child : Block} {inner innermost : ClosedSchema}
    (hparent : taskSchema.children.lookup block.name = some inner)
    (h : inner.children.lookup child.name = some innermost) :
    validateNested block child = .ok () ↔ Conforms innermost child := by
  obtain ⟨attributes, hattributes, rfl⟩ := nestedAttributes_of_lookup hparent h
  rw [Acl.conforms_iff ("bench." ++ block.name ++ "." ++ child.name)]
  simp only [validateNested, hattributes, Result.bind_ok_iff, Except.ok.injEq, exists_eq_left',
    ClosedSchema.top, ClosedSchema.children, ClosedSchema.attributes, ClosedSchema.labels,
    List.map_nil, List.lookup_nil, reduceCtorEq, false_implies, implies_true, and_true]

theorem validateChild_ok_iff {block : Block} {inner : ClosedSchema}
    (h : taskSchema.children.lookup block.name = some inner) :
    validateChild block = .ok () ↔ Conforms inner block := by
  rw [Acl.conforms_iff ("bench." ++ block.name)]
  simp only [validateChild, blockSchema_of_lookup h, Result.bind_ok_iff, Except.ok.injEq,
    exists_eq_left', Result.exists_unit_iff, Result.forM_ok_iff]
  refine and_congr_right (fun hvalid => ⟨fun hnested => ?_, fun hbelow => ?_⟩)
  · intro child hchild innermost hlookup
    exact (validateNested_ok_iff h hlookup).mp (hnested child hchild)
  · intro child hchild
    obtain ⟨-, -, hblocks⟩ := Acl.validateBlock_ok_iff.mp hvalid
    obtain ⟨innermost, hlookup⟩ := Acl.exists_lookup_of_mem (hblocks child hchild)
    exact (validateNested_ok_iff h hlookup).mpr (hbelow child hchild innermost hlookup)

/-- `validate_task_schema` accepts exactly the blocks that conform to the schema. -/
theorem validateTaskSchema_ok_iff (root : Block) :
    validateTaskSchema root = .ok () ↔ Conforms taskSchema root := by
  rw [Acl.conforms_iff "bench"]
  simp only [validateTaskSchema, Result.bind_ok_iff, Result.exists_unit_iff, Result.forM_ok_iff]
  refine and_congr_right (fun hvalid => ⟨fun hchildren => ?_, fun hbelow => ?_⟩)
  · intro block hblock inner hlookup
    exact (validateChild_ok_iff hlookup).mp (hchildren block hblock)
  · intro block hblock
    obtain ⟨-, -, hblocks⟩ := Acl.validateBlock_ok_iff.mp hvalid
    have hlisted : block.name ∈ taskSchema.children.map Prod.fst := hblocks block hblock
    obtain ⟨inner, hlookup⟩ := Acl.exists_lookup_of_mem hlisted
    exact (validateChild_ok_iff hlookup).mpr (hbelow block hblock inner hlookup)

end A3sBench.TaskSource
