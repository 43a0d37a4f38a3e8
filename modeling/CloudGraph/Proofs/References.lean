import CloudGraph.Proofs.Contribution

/-!
# References inside values

A value refers to resources by name: in references, in attributes, and in what it depends on.
`Value.Refers` says so by the fields of a value at any depth and keeps these three apart, since a
name that may stand in a reference need not be allowed in an attribute. `Value.collect` lists what
a value refers to, and the lists of the fragments that resources are made of are computed one by
one.
-/

namespace CloudGraph

open Fragment

/-- A name that is referred to, and the way in which it is. -/
inductive Reference where
  | ref (name : String)
  | attribute (name : String)
  | dependency (name : String)
  deriving DecidableEq

/-- The name that is referred to. -/
def Reference.name : Reference → String
  | .ref name | .attribute name | .dependency name => name

/-- The fields of the content of a shared part, which holds no mapping inside another. -/
def Shared.fields (part : Shared) : List (Atom × Value) :=
  match part.value with
  | .map entries => entries
  | _ => []

namespace Value

mutual

/-- The fields of all mappings in a value, at any depth; shared parts are opened. -/
def fields : Value → List (Atom × Value)
  | .atom _ => []
  | .list items => itemFields items
  | .map entries => entryFields entries
  | .shared part => part.fields

/-- `fields` on the items of a list. -/
def itemFields : List Value → List (Atom × Value)
  | [] => []
  | item :: items => fields item ++ itemFields items

/-- `fields` on the entries of a mapping. -/
def entryFields : List (Atom × Value) → List (Atom × Value)
  | [] => []
  | (key, value) :: entries => (key, value) :: (fields value ++ entryFields entries)

end

/-- A name is one that some part of a value depends on. -/
inductive DependsOn (value : Value) : String → Prop where
  | one {name} (field : (.text "DependsOn", .text name) ∈ value.fields) : DependsOn value name
  | several {name names} (field : (.text "DependsOn", .list names) ∈ value.fields)
      (member : .text name ∈ names) : DependsOn value name

/-- A value refers to a name in some way. -/
inductive Refers (value : Value) : Reference → Prop where
  | ref {name} (field : (.text "Ref", .text name) ∈ value.fields) : Refers value (.ref name)
  | attribute {name rest}
      (field : (.text "Fn::GetAtt", .list (.text name :: rest)) ∈ value.fields) :
      Refers value (.attribute name)
  | dependency {name} (needed : value.DependsOn name) : Refers value (.dependency name)

/-- A name is that of a role which a value uses: the attribute of a role under the fields for
its name, or a reference under `Roles`. -/
inductive UsesRole (value : Value) : String → Prop where
  | ofAttribute {key role rest target} (known : key ∈ ["RoleARN", "RoleArn"])
      (field : (.text key, target) ∈ value.fields)
      (inner : (.text "Fn::GetAtt", .list (.text role :: rest)) ∈ target.fields) :
      UsesRole value role
  | ref {role target} (field : (.text "Roles", target) ∈ value.fields)
      (inner : (.text "Ref", .text role) ∈ target.fields) : UsesRole value role

/-- The name in a field that is a reference. -/
def refsOf (field : Atom × Value) : List String :=
  match field.2 with
  | .atom (.text name) => if field.1 = .text "Ref" then [name] else []
  | _ => []

/-- The name in a field that is an attribute. -/
def attributesOf (field : Atom × Value) : List String :=
  match field.2 with
  | .list (.atom (.text name) :: _) => if field.1 = .text "Fn::GetAtt" then [name] else []
  | _ => []

/-- The names in a field that says what its mapping depends on. -/
def dependenciesOf (field : Atom × Value) : List String :=
  match field.2 with
  | .atom (.text name) => if field.1 = .text "DependsOn" then [name] else []
  | .list names => if field.1 = .text "DependsOn" then textsIn names else []
  | _ => []

/-- The roles in a field. -/
def rolesOf (field : Atom × Value) : List String :=
  if field.1 = .text "RoleARN" ∨ field.1 = .text "RoleArn" then field.2.fields.flatMap attributesOf
  else if field.1 = .text "Roles" then field.2.fields.flatMap refsOf
  else []

/-- Everything that a field refers to. -/
def referencesOf (field : Atom × Value) : List Reference :=
  (refsOf field).map .ref ++ (attributesOf field).map .attribute ++
    (dependenciesOf field).map .dependency

/-- What is found in the fields of a value, in order. -/
def collect {α : Type} (foundIn : Atom × Value → List α) (value : Value) : List α :=
  value.fields.flatMap foundIn

theorem fields_list (items : List Value) : fields (.list items) = items.flatMap fields := by
  rw [fields]
  induction items with
  | nil => rfl
  | cons item items ih => rw [itemFields, ih, List.flatMap_cons]

theorem fields_map (entries : List (Atom × Value)) :
    fields (.map entries) = entries.flatMap fun entry => entry :: fields entry.2 := by
  rw [fields]
  induction entries with
  | nil => rfl
  | cons entry entries ih => rw [entryFields, ih, List.flatMap_cons, List.cons_append]

section Collect

variable {α : Type} {foundIn : Atom × Value → List α}

@[simp]
theorem collect_atom (scalar : Atom) : collect foundIn (.atom scalar) = [] := rfl

@[simp]
theorem collect_list (items : List Value) :
    collect foundIn (.list items) = items.flatMap (collect foundIn) := by
  rw [collect, fields_list, List.flatMap_assoc]
  rfl

@[simp]
theorem collect_map (entries : List (Atom × Value)) :
    collect foundIn (.map entries) =
      entries.flatMap fun entry => foundIn entry ++ collect foundIn entry.2 := by
  rw [collect, fields_map, List.flatMap_assoc]
  rfl

/-- What is found in the fields of a record. -/
def collectFields (foundIn : Atom × Value → List α) (fields : List (String × Value)) : List α :=
  fields.flatMap fun field => foundIn (.text field.1, field.2) ++ collect foundIn field.2

@[simp]
theorem collectFields_nil : collectFields foundIn [] = [] := rfl

@[simp]
theorem collectFields_cons (field : String × Value) (fields : List (String × Value)) :
    collectFields foundIn (field :: fields) =
      foundIn (.text field.1, field.2) ++ collect foundIn field.2 ++ collectFields foundIn fields :=
  List.flatMap_cons

@[simp]
theorem collectFields_append (first second : List (String × Value)) :
    collectFields foundIn (first ++ second) =
      collectFields foundIn first ++ collectFields foundIn second :=
  List.flatMap_append

@[simp]
theorem collect_record (fields : List (String × Value)) :
    collect foundIn (.record fields) = collectFields foundIn fields := by
  rw [Value.record, collect_map, List.flatMap_map]
  rfl

end Collect

section Meaning

variable {value : Value} {name : String}

theorem mem_refsOf {field : Atom × Value} :
    name ∈ refsOf field ↔ field = (.text "Ref", .text name) := by
  obtain ⟨key, inner⟩ := field
  unfold refsOf
  split
  next text => by_cases isRef : key = .text "Ref" <;> simp_all [eq_comm]
  next other => simpa using fun _ equal => other name equal

theorem mem_attributesOf {field : Atom × Value} :
    name ∈ attributesOf field ↔
      ∃ rest, field = (.text "Fn::GetAtt", .list (.text name :: rest)) := by
  obtain ⟨key, inner⟩ := field
  unfold attributesOf
  split
  next text rest => by_cases isAttribute : key = .text "Fn::GetAtt" <;> simp_all [eq_comm]
  next other => simpa using fun _ rest equal => other name rest equal

theorem mem_dependenciesOf {field : Atom × Value} : name ∈ dependenciesOf field ↔
    field = (.text "DependsOn", .text name) ∨
      ∃ names, field = (.text "DependsOn", .list names) ∧ .text name ∈ names := by
  obtain ⟨key, inner⟩ := field
  by_cases needs : key = .text "DependsOn"
  · cases inner with
    | atom scalar => cases scalar <;> simp [dependenciesOf, needs, eq_comm]
    | list names => simp [dependenciesOf, needs, mem_textsIn]
    | map | shared => simp [dependenciesOf]
  · unfold dependenciesOf
    split <;> simp [needs]

theorem dependsOn_iff : value.DependsOn name ↔ name ∈ collect dependenciesOf value := by
  rw [collect, List.mem_flatMap]
  simp only [mem_dependenciesOf]
  constructor
  · rintro (field | ⟨field, member⟩)
    · exact ⟨_, field, .inl rfl⟩
    · exact ⟨_, field, .inr ⟨_, rfl, member⟩⟩
  · rintro ⟨_, field, rfl | ⟨names, rfl, member⟩⟩
    · exact .one field
    · exact .several field member

theorem refers_iff {reference : Reference} :
    value.Refers reference ↔ reference ∈ collect referencesOf value := by
  rw [collect, List.mem_flatMap]
  simp only [referencesOf, List.mem_append, List.mem_map]
  constructor
  · rintro (field | field | needed)
    · exact ⟨_, field, .inl (.inl ⟨_, mem_refsOf.2 rfl, rfl⟩)⟩
    · exact ⟨_, field, .inl (.inr ⟨_, mem_attributesOf.2 ⟨_, rfl⟩, rfl⟩)⟩
    · obtain ⟨field, member, named⟩ := List.mem_flatMap.1 (dependsOn_iff.1 needed)
      exact ⟨field, member, .inr ⟨_, named, rfl⟩⟩
  · rintro ⟨field, member, (⟨name, named, rfl⟩ | ⟨name, named, rfl⟩) | ⟨name, named, rfl⟩⟩
    · obtain rfl := mem_refsOf.1 named
      exact .ref member
    · obtain ⟨rest, rfl⟩ := mem_attributesOf.1 named
      exact .attribute member
    · exact .dependency (dependsOn_iff.2 (List.mem_flatMap.2 ⟨field, member, named⟩))

theorem mem_rolesOf {field : Atom × Value} : name ∈ rolesOf field ↔
    (∃ key ∈ ["RoleARN", "RoleArn"], field.1 = .text key ∧
      ∃ rest, (.text "Fn::GetAtt", .list (.text name :: rest)) ∈ field.2.fields) ∨
    (field.1 = .text "Roles" ∧ (.text "Ref", .text name) ∈ field.2.fields) := by
  obtain ⟨key, inner⟩ := field
  have inAttribute : name ∈ inner.fields.flatMap attributesOf ↔
      ∃ rest, (.text "Fn::GetAtt", .list (.text name :: rest)) ∈ inner.fields := by
    simp only [List.mem_flatMap, mem_attributesOf]
    constructor
    · rintro ⟨_, member, rest, rfl⟩
      exact ⟨rest, member⟩
    · rintro ⟨rest, member⟩
      exact ⟨_, member, rest, rfl⟩
  have inRef : name ∈ inner.fields.flatMap refsOf ↔ (.text "Ref", .text name) ∈ inner.fields := by
    simp only [List.mem_flatMap, mem_refsOf, exists_eq_right]
  unfold rolesOf
  split
  next known =>
    rw [inAttribute]
    rcases known with rfl | rfl <;> simp
  next other =>
    rw [not_or] at other
    split
    next roles =>
      obtain rfl : key = .text "Roles" := roles
      simp [inRef]
    next => simp_all

theorem usesRole_iff : value.UsesRole name ↔ name ∈ collect rolesOf value := by
  rw [collect, List.mem_flatMap]
  simp only [mem_rolesOf]
  constructor
  · rintro (⟨known, field, inner⟩ | ⟨field, inner⟩)
    · exact ⟨_, field, .inl ⟨_, known, rfl, _, inner⟩⟩
    · exact ⟨_, field, .inr ⟨rfl, inner⟩⟩
  · rintro ⟨⟨_, target⟩, field, ⟨key, known, rfl, rest, inner⟩ | ⟨rfl, inner⟩⟩
    · exact .ofAttribute known field inner
    · exact .ref field inner

end Meaning

section Selective

/-- The fields that refer to something. -/
def referringKeys : List String :=
  ["Ref", "Fn::GetAtt", "DependsOn", "RoleARN", "RoleArn", "Roles"]

/-- Only fields that refer to something are looked into. -/
def Selective {α : Type} (foundIn : Atom × Value → List α) : Prop :=
  ∀ key ∉ referringKeys, ∀ value, foundIn (.text key, value) = []

theorem Selective.plain {α : Type} {foundIn : Atom × Value → List α} (selective : Selective foundIn)
    {key : String} (other : key ∉ referringKeys) (value : Value) :
    foundIn (.text key, value) = [] :=
  selective key other value

theorem selective_referencesOf : Selective referencesOf := by
  intro key plain value
  rw [List.eq_nil_iff_forall_not_mem]
  intro reference member
  simp only [referencesOf, List.mem_append, List.mem_map, mem_refsOf, mem_attributesOf,
    mem_dependenciesOf] at member
  simp_all [referringKeys]

theorem selective_rolesOf : Selective rolesOf := by
  intro key plain value
  simp only [referringKeys, List.mem_cons, not_or] at plain
  simp [rolesOf, plain]

end Selective

end Value

open Value

section Builders

variable {id roleId : String} {α : Type} {foundIn : Atom × Value → List α}

theorem references_deliveryStreamResource {bucket policyId : String}
    {transformer : Option Value} :
    collect referencesOf (deliveryStreamResource (.text bucket) roleId policyId transformer) =
      [.dependency policyId, .attribute bucket, .attribute roleId] ++
        (transformer.map fun function =>
          Reference.ref (function.plain ++ "LambdaFunction")).toList := by
  cases transformer <;> rfl

theorem roles_deliveryStreamResource {bucket policyId : String} {transformer : Option Value} :
    collect rolesOf (deliveryStreamResource (.text bucket) roleId policyId transformer) =
      [roleId] := by
  cases transformer <;> rfl

theorem dependencies_deliveryStreamResource {bucket policyId : String}
    {transformer : Option Value} :
    collect dependenciesOf (deliveryStreamResource (.text bucket) roleId policyId transformer) =
      [policyId] := by
  cases transformer <;> rfl

section Described

variable (selective : Selective foundIn) {description : String}

include selective

theorem collect_topicRuleResource {actions : List Value} :
    collect foundIn (topicRuleResource (.text description) actions) =
      actions.flatMap (collect foundIn) := by
  unfold topicRuleResource resourceOf describedAs
  split <;> simp [selective.plain, referringKeys]

theorem collect_analyticsResource {inputEnds : List (String × Value)} :
    collect foundIn (analyticsResource (.text id) (.text description) inputEnds) =
      collectFields foundIn inputEnds := by
  unfold analyticsResource analyticsInput resourceOf describedAs
  split <;> simp [selective.plain, referringKeys]

end Described

theorem references_analyticsOutputs {outputEnds : List (String × Value)} :
    collect referencesOf (analyticsOutputs (.text id) outputEnds) =
      [.dependency id, .ref id] ++ collectFields referencesOf outputEnds := by
  have own : referencesOf (.text "DependsOn", .text id) = [.dependency id] := rfl
  have reference : referencesOf (.text "Ref", .text id) = [.ref id] := rfl
  simp [analyticsOutputs, analyticsOutput, ref, selective_referencesOf.plain, referringKeys, own,
    reference]

theorem roles_analyticsOutputs {outputEnds : List (String × Value)} :
    collect rolesOf (analyticsOutputs (.text id) outputEnds) =
      collectFields rolesOf outputEnds := by
  simp [analyticsOutputs, analyticsOutput, ref, rolesOf]

theorem references_identityPolicy {statements : List Value} :
    collect referencesOf (identityPolicy roleId statements) =
      statements.flatMap (collect referencesOf) ++ [.ref roleId] := by
  have reference : referencesOf (.text "Ref", .text roleId) = [.ref roleId] := rfl
  have role : referencesOf (.text "Roles", .list [.record [("Ref", .text roleId)]]) = [] := rfl
  simp [identityPolicy, attachedPolicy, policy, ref, selective_referencesOf.plain, referringKeys,
    reference, role]

theorem roles_identityPolicy {statements : List Value} :
    collect rolesOf (identityPolicy roleId statements) =
      statements.flatMap (collect rolesOf) ++ [roleId] := by
  have role : rolesOf (.text "Roles", .list [.record [("Ref", .text roleId)]]) = [roleId] := rfl
  have reference : rolesOf (.text "Ref", .text roleId) = [] := rfl
  simp [identityPolicy, attachedPolicy, policy, ref, selective_rolesOf.plain, referringKeys, role,
    reference]

theorem collectFields_analyticsEnds (streamField deliveryField : String)
    (stream? delivery? : Option Value) :
    collectFields foundIn (analyticsEnds streamField deliveryField roleId stream? delivery?) =
      collectFields foundIn (analyticsEnds streamField deliveryField roleId stream? none) ++
        collectFields foundIn (analyticsEnds streamField deliveryField roleId none delivery?) := by
  simp [analyticsEnds]

section Ends

variable {streamField deliveryField : String} {stream? delivery? : Option Value}
  (text : ∀ stream, stream? = some stream → ∃ name, stream = .text name)

include text

/-- The ends of an application name the stream, its role and what every descriptor may name. -/
theorem references_analyticsEnds {reference : Reference} (member : reference ∈
      collectFields referencesOf
        (analyticsEnds streamField deliveryField roleId stream? delivery?)) :
    reference = .attribute roleId ∨ reference = .ref "AWS::Region" ∨
      reference = .ref "AWS::AccountId" ∨
        ∃ name, reference = .attribute name ∧ stream? = some (.text name) := by
  rw [collectFields_analyticsEnds, List.mem_append] at member
  rcases member with reading | delivering
  · cases stream? with
    | none => cases reading
    | some stream =>
        obtain ⟨streamName, rfl⟩ := text stream rfl
        have listed : reference ∈ [Reference.attribute streamName, .attribute roleId] := reading
        simp only [List.mem_cons, List.not_mem_nil, or_false] at listed
        rcases listed with rfl | rfl <;> simp
  · cases delivery? with
    | none => cases delivering
    | some stream =>
        have listed : reference ∈
            [Reference.ref "AWS::Region", .ref "AWS::AccountId", .attribute roleId] := delivering
        simp only [List.mem_cons, List.not_mem_nil, or_false] at listed
        rcases listed with rfl | rfl | rfl <;> simp

theorem roles_analyticsEnds (streamOther : streamField ∉ referringKeys)
    (deliveryOther : deliveryField ∉ referringKeys) :
    ∀ role ∈ collectFields rolesOf
      (analyticsEnds streamField deliveryField roleId stream? delivery?), role = roleId := by
  intro role member
  rw [collectFields_analyticsEnds, List.mem_append] at member
  rcases member with reading | delivering
  · cases stream? with
    | none => cases reading
    | some stream =>
        obtain ⟨streamName, rfl⟩ := text stream rfl
        simp only [analyticsEnds, Option.map_some, Option.map_none, Option.toList_some,
          Option.toList_none, List.append_nil, collectFields_cons, collectFields_nil,
          selective_rolesOf.plain streamOther] at reading
        exact List.mem_singleton.1 reading
  · cases delivery? with
    | none => cases delivering
    | some stream =>
        simp only [analyticsEnds, Option.map_some, Option.map_none, Option.toList_some,
          Option.toList_none, List.nil_append, collectFields_cons, collectFields_nil,
          selective_rolesOf.plain deliveryOther] at delivering
        exact List.mem_singleton.1 delivering

end Ends

end Builders

end CloudGraph
