import FilterQuery.Proofs.Query.TextLeaves

/-!
# What the text of a field means

The text of a field leads to a field, and from then on only the name of that field is kept.  The
operator, the operands and the condition are all decided by the field that the name leads to.  It is
the same field unless another one stands before it that is labelled with its name.
-/

namespace FilterQuery

/-- The names of the fields are pairwise distinct, letter case aside.  Labels are as they like. -/
def Schema.NamesDistinct (schema : Schema) : Prop :=
  schema.fields.Pairwise fun field other => sameCaseless field.name other.name = false

instance (schema : Schema) : Decidable schema.NamesDistinct :=
  inferInstanceAs (Decidable (schema.fields.Pairwise _))

/-- A field hides another one that stands behind it when it is labelled with its name. -/
structure Field.Hides (schema : Schema) (field other : Field) : Prop where
  before : List.Sublist [field, other] schema.fields
  label_ne : field.label ≠ ""
  labelled : sameCaseless field.label other.name = true

namespace Schema

variable {schema : Schema} {text : String} {named field : Field}

/-- The name of a field leads to the field itself or to one that hides it. -/
theorem eq_or_hides_of_field?_name (distinct : schema.NamesDistinct)
    (member : named ∈ schema.fields) (leads : schema.field? named.name = some field) :
    field = named ∨ field.Hides schema named := by
  obtain ⟨isNamed, front, back, fields_eq, skipped⟩ := List.find?_eq_some_iff_append.mp leads
  have self : named.isNamed named.name = true := by simp [Field.isNamed, sameCaseless_self]
  rw [fields_eq, List.mem_append, List.mem_cons] at member
  rcases member with inFront | rfl | inBack
  · have unnamed := skipped named inFront
    rw [self] at unnamed
    contradiction
  · exact Or.inl rfl
  · have before : List.Sublist [field, named] schema.fields := by
      rw [fields_eq]
      exact ((List.singleton_sublist.mpr inBack).cons_cons field).trans
        (List.sublist_append_right front (field :: back))
    have apart := List.pairwise_pair.mp (List.Pairwise.sublist before distinct)
    rw [Field.isNamed, apart, Bool.false_or, Bool.and_eq_true, bne_iff_ne] at isNamed
    exact Or.inr ⟨before, isNamed.1, isNamed.2⟩

end Schema

namespace Source

variable {schema : Schema} {source : Source} {expression : Expression}

/-- Every condition of a compiled expression means its leaf to one field in all its parts, which is
the field that the text names or one that hides it. -/
theorem fields_of_compile (distinct : schema.NamesDistinct)
    (compiled : source.compile schema = .ok (some expression)) :
    List.Forall₂ (fun written test => ∃ named field, schema.field? written.field = some named ∧
      written.Means field test ∧ (field = named ∨ field.Hides schema named))
      (source.writtenLeaves schema) expression.conditions := by
  refine (compilesTo_of_compile compiled).imp ?_
  rintro written test ⟨named, field, found, leads, means⟩
  have member : named ∈ schema.fields := List.mem_of_find?_eq_some found
  exact ⟨named, field, found, means, Schema.eq_or_hides_of_field?_name distinct member leads⟩

/-- Two fields, of which the first is labelled with the name of the second. -/
def labelSchema : Schema :=
  ⟨[⟨"a", "b", .single .string, [.compare .equal], []⟩,
    ⟨"b", "c", .single .string, [.compare .equal], []⟩]⟩

/-- A query with the label of the second field. -/
def labelQuery : Source :=
  .written .text "A = x and c = 'y'"

theorem fields_of_compile_labelQuery :
    labelSchema.NamesDistinct ∧
      ∃ expression, labelQuery.compile labelSchema = .ok (some expression) ∧
        List.Forall₂ (fun (written : WrittenLeaf) test => ∃ named field,
          labelSchema.field? written.field = some named ∧ written.Means field test ∧
            (field = named ∨ field.Hides labelSchema named))
          [⟨"A", ["x"], false⟩, ⟨"c", ["'y'"], false⟩] expression.conditions := by
  have distinct : labelSchema.NamesDistinct := by decide
  have leaves_eq : labelQuery.writtenLeaves labelSchema =
      [⟨"A", ["x"], false⟩, ⟨"c", ["'y'"], false⟩] := by decide +kernel
  obtain ⟨expression, compiled⟩ := exists_of_isSome_compile labelSchema labelQuery
    (by decide +kernel)
  rw [← leaves_eq]
  exact ⟨distinct, expression, compiled, fields_of_compile distinct compiled⟩

/-- The field of a condition need not be the one that the text of its leaf names. -/
theorem not_forall_named :
    ¬ ∀ (schema : Schema) (source : Source) (expression : Expression), schema.NamesDistinct →
      source.compile schema = .ok (some expression) →
        List.Forall₂ (fun written test => ∀ named, schema.field? written.field = some named →
          test.field = named.name) (source.writtenLeaves schema) expression.conditions := by
  intro claimed
  have compiled : (value (.array [.string "c", .string "Equal", .string "x"])).compile labelSchema =
      .ok (some (.condition ⟨.single .string, "a", .compare .equal, .text "x"⟩)) := rfl
  cases claimed labelSchema _ _ (by decide) compiled with
  | cons kept _ =>
      have same := kept _ rfl
      contradiction

end Source

end FilterQuery
