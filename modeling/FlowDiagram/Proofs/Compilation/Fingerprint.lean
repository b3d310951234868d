import FlowDiagram.Compilation
import FlowDiagram.Proofs.Program.Named
import FlowDiagram.Proofs.Text.Joining

/-!
# Fingerprints of registries

What is digested of a registry is a text in which the shapes of its entries follow one another.  The
names in it are identifiers, and hold none of the marks, so the shapes can be read off the text
again: registries of one text list the same shapes in the same order.
-/

namespace FlowDiagram

/-! ## Shapes -/

/-- The name of a definition, and how much it declares of each kind. -/
structure Shape where
  name : String
  universal : Nat
  existential : Nat
  inputs : Nat
  outputs : Nat
  deriving DecidableEq

def RegistryEntry.shape (entry : RegistryEntry) : Shape :=
  ⟨entry.name, entry.universal, entry.existential, entry.inputs, entry.outputs⟩

/-- The shapes of all definitions, in the order of registration. -/
def Registry.shapes (registry : Registry) : List Shape :=
  registry.entries.map RegistryEntry.shape

/-- The text of any entry of the shape. -/
def Shape.text (shape : Shape) : String :=
  RegistryEntry.shapeText
    ⟨0, shape.name, .nowhere, shape.universal, shape.existential, shape.inputs, shape.outputs⟩

theorem Registry.shapeText_eq (registry : Registry) :
    registry.shapeText = ";".intercalate (registry.shapes.map Shape.text) := by
  unfold shapeText shapes
  rw [List.map_map]
  rfl

/-! ## Reading a shape off its text -/

section Texts

variable {shape first second : Shape}

theorem not_mem_toDigits {number : Nat} {c : Char} (other : c.isDigit = false) :
    c ∉ Nat.toDigits 10 number := by
  intro digit
  rw [Nat.isDigit_of_mem_toDigits (by decide) (by decide) digit] at other
  cases other

theorem Shape.toList_text (shape : Shape) :
    shape.text.toList = shape.name.toList ++ '<' :: (Nat.toDigits 10 shape.universal ++ '|' ::
      (Nat.toDigits 10 shape.existential ++ '>' :: '[' :: (Nat.toDigits 10 shape.inputs ++ '|' ::
        (Nat.toDigits 10 shape.outputs ++ [']'])))) := by
  simp [text, RegistryEntry.shapeText, toString]

/-- A number is told from the mark behind it, which is no digit. -/
theorem eq_of_digits {mark : Char} (other : mark.isDigit = false) {number more : Nat}
    {rest others : List Char}
    (same : Nat.toDigits 10 number ++ mark :: rest = Nat.toDigits 10 more ++ mark :: others) :
    number = more ∧ rest = others := by
  obtain ⟨digits, behind⟩ := eq_of_marked (not_mem_toDigits other) (not_mem_toDigits other) same
  refine ⟨?_, behind⟩
  rw [← Nat.ofDigitChars_ten_toDigits (n := number), digits, Nat.ofDigitChars_ten_toDigits]

/-- A shape can be read off its text, part by part up to the mark behind each. -/
theorem Shape.eq_of_text (named : IsIdentName first.name) (alsoNamed : IsIdentName second.name)
    (same : first.text = second.text) : first = second := by
  have letters := congrArg String.toList same
  rw [toList_text, toList_text] at letters
  obtain ⟨name, letters⟩ :=
    eq_of_marked (named.not_mem (by decide)) (alsoNamed.not_mem (by decide)) letters
  obtain ⟨universal, letters⟩ := eq_of_digits (by decide) letters
  obtain ⟨existential, letters⟩ := eq_of_digits (by decide) letters
  obtain ⟨inputs, letters⟩ := eq_of_digits (by decide) (List.cons.inj letters).2
  obtain ⟨outputs, -⟩ := eq_of_digits (by decide) letters
  cases first
  cases second
  cases String.toList_inj.mp name
  cases universal
  cases existential
  cases inputs
  cases outputs
  rfl

theorem Shape.text_ne_empty (shape : Shape) : shape.text ≠ "" := by
  intro empty
  have letters := congrArg String.toList empty
  simp [toList_text] at letters

/-- The mark between shapes stands nowhere in a shape. -/
theorem Shape.not_mem_text (named : IsIdentName shape.name) : ';' ∉ shape.text.toList := by
  have name : ';' ∉ shape.name.toList := named.not_mem (by decide)
  have apart (number : Nat) : ';' ∉ Nat.toDigits 10 number := not_mem_toDigits (by decide)
  simp [toList_text, name, apart]

theorem Shape.eq_of_texts {shapes others : List Shape}
    (named : ∀ shape ∈ shapes, IsIdentName shape.name)
    (alsoNamed : ∀ shape ∈ others, IsIdentName shape.name)
    (same : shapes.map text = others.map text) : shapes = others := by
  induction shapes generalizing others with
  | nil => exact (List.map_eq_nil_iff.mp same.symm).symm
  | cons shape rest ih =>
      cases others with
      | nil => cases same
      | cons other more =>
          obtain ⟨named, restNamed⟩ := List.forall_mem_cons.mp named
          obtain ⟨alsoNamed, moreNamed⟩ := List.forall_mem_cons.mp alsoNamed
          obtain ⟨sameShape, sameRest⟩ := List.cons.inj same
          rw [eq_of_text named alsoNamed sameShape, ih restNamed moreNamed sameRest]

/-- Shapes can be read off the text in which they follow one another. -/
theorem eq_of_intercalate_text {shapes others : List Shape}
    (named : ∀ shape ∈ shapes, IsIdentName shape.name)
    (alsoNamed : ∀ shape ∈ others, IsIdentName shape.name)
    (same : ";".intercalate (shapes.map Shape.text) = ";".intercalate (others.map Shape.text)) :
    shapes = others := by
  have filled (shapes : List Shape) : ∀ text ∈ shapes.map Shape.text, text ≠ "" :=
    List.forall_mem_map.mpr fun shape _ => shape.text_ne_empty
  have plain {shapes : List Shape} (named : ∀ shape ∈ shapes, IsIdentName shape.name) :
      ∀ text ∈ shapes.map Shape.text, ';' ∉ text.toList :=
    List.forall_mem_map.mpr fun shape member => Shape.not_mem_text (named shape member)
  refine Shape.eq_of_texts named alsoNamed ?_
  exact eq_of_intercalate_filled rfl (filled _) (filled _) (plain named) (plain alsoNamed) same

end Texts

/-! ## Shapes of programs -/

/-- All entries are made of definitions. -/
theorem Registry.mem_registerAll {registry : Registry} {index : Nat}
    {definitions : List Definition} {entry : RegistryEntry}
    (member : entry ∈ (registry.registerAll index definitions).1.entries) :
    entry ∈ registry.entries ∨ ∃ definition ∈ definitions, entry.name = definition.name.name := by
  induction definitions generalizing registry index with
  | nil => exact .inl member
  | cons definition rest ih =>
      cases held : registry.find? definition.name.name with
      | none =>
          rw [registerAll_of_new held] at member
          rcases ih member with registered | ⟨other, among, same⟩
          · rcases List.mem_append.mp registered with before | added
            · exact .inl before
            · rw [List.mem_singleton.mp added]
              exact .inr ⟨definition, List.mem_cons_self, rfl⟩
          · exact .inr ⟨other, List.mem_cons_of_mem _ among, same⟩
      | some first =>
          rw [registerAll_of_held held] at member
          rcases ih member with registered | ⟨other, among, same⟩
          · exact .inl registered
          · exact .inr ⟨other, List.mem_cons_of_mem _ among, same⟩

/-- The registry of a program that has been read holds identifiers. -/
theorem Registry.isIdentName_of_read {source : List Char} {program : Program}
    (reads : Program.read source = .ok program) :
    ∀ shape ∈ (Registry.ofProgram program).1.shapes, IsIdentName shape.name := by
  intro shape member
  obtain ⟨entry, registered, rfl⟩ := List.mem_map.mp member
  obtain none_ | ⟨definition, among, same⟩ := Registry.mem_registerAll registered
  · cases none_
  · have named := (Program.allNamed_of_read reads).of_mem among definition.name List.mem_cons_self
    rwa [← same] at named

/--
The text that is digested of a registry encodes the shapes of its entries: for programs that have
been read, two registries have the same text exactly if they list the same names with the same
numbers of symbols and ports, in the same order.  So they have the same fingerprint exactly then, as
long as the two texts do not collide in the digest.
-/
theorem Fingerprint.registry_eq_iff {source other : String} {program twin : Program}
    (yields : (readSource source.toList).program = some program)
    (alsoYields : (readSource other.toList).program = some twin) :
    ((Registry.ofProgram program).1.shapeText = (Registry.ofProgram twin).1.shapeText ↔
      (Registry.ofProgram program).1.shapes = (Registry.ofProgram twin).1.shapes) ∧
    ((Digest.ofText (Registry.ofProgram program).1.shapeText =
        Digest.ofText (Registry.ofProgram twin).1.shapeText →
          (Registry.ofProgram program).1.shapeText = (Registry.ofProgram twin).1.shapeText) →
      ((Fingerprint.of source (Registry.ofProgram program).1).registry =
          (Fingerprint.of other (Registry.ofProgram twin).1).registry ↔
        (Registry.ofProgram program).1.shapes = (Registry.ofProgram twin).1.shapes)) := by
  have named := Registry.isIdentName_of_read (readSource_program_eq_some.mp yields)
  have alsoNamed := Registry.isIdentName_of_read (readSource_program_eq_some.mp alsoYields)
  have texts : (Registry.ofProgram program).1.shapeText = (Registry.ofProgram twin).1.shapeText ↔
      (Registry.ofProgram program).1.shapes = (Registry.ofProgram twin).1.shapes := by
    rw [Registry.shapeText_eq, Registry.shapeText_eq]
    exact ⟨eq_of_intercalate_text named alsoNamed, fun same => by rw [same]⟩
  exact ⟨texts, fun apart => ⟨fun same => texts.mp (apart same),
    fun same => congrArg Digest.ofText (texts.mpr same)⟩⟩

/-- A definition of one symbol, two inputs and one output. -/
def spacedShape : String := "def f = <t> [a, b | c]"

/-- The same shape, with other symbols and ports. -/
def denseShape : String := "def f=<s|>[x,y|z] link # a, b"

/-- The shape is one with its twin, and different from no shape at all. -/
theorem Fingerprint.registry_eq_iff_shaped :
    ∃ first second none_, (readSource spacedShape.toList).program = some first ∧
      (readSource denseShape.toList).program = some second ∧
      (readSource "".toList).program = some none_ ∧
      (Fingerprint.of spacedShape (Registry.ofProgram first).1).registry =
        (Fingerprint.of denseShape (Registry.ofProgram second).1).registry ∧
      (Fingerprint.of spacedShape (Registry.ofProgram first).1).registry ≠
        (Fingerprint.of "" (Registry.ofProgram none_).1).registry := by
  have reading (source text : String) (shapes : List Shape)
      (reads : (readSource source.toList).program.map (fun program =>
        ((Registry.ofProgram program).1.shapeText, (Registry.ofProgram program).1.shapes)) =
          some (text, shapes)) :
      ∃ program, (readSource source.toList).program = some program ∧
        (Registry.ofProgram program).1.shapeText = text ∧
        (Registry.ofProgram program).1.shapes = shapes := by
    obtain ⟨program, yields, same⟩ := Option.map_eq_some_iff.mp reads
    exact ⟨program, yields, (Prod.mk.inj same).1, (Prod.mk.inj same).2⟩
  obtain ⟨first, yields, text, shapes⟩ := reading spacedShape "f<1|0>[2|1]"
    [⟨"f", 1, 0, 2, 1⟩] (by decide +kernel)
  obtain ⟨second, alsoYields, sameText, sameShapes⟩ := reading denseShape "f<1|0>[2|1]"
    [⟨"f", 1, 0, 2, 1⟩] (by decide +kernel)
  obtain ⟨none_, emptyYields, emptyText, noShapes⟩ := reading "" "" [] (by decide +kernel)
  have twins := (Fingerprint.registry_eq_iff yields alsoYields).2
    fun _ => text.trans sameText.symm
  have apart := (Fingerprint.registry_eq_iff yields emptyYields).2 fun collides => by
    rw [text, emptyText] at collides
    exact absurd collides (by decide +kernel)
  refine ⟨first, second, none_, yields, alsoYields, emptyYields, ?_, ?_⟩
  · exact twins.mpr (shapes.trans sameShapes.symm)
  · intro same
    have none_ := shapes.symm.trans ((apart.mp same).trans noShapes)
    cases none_

end FlowDiagram
