import Mathlib.Data.List.Basic

/-!
# Joined texts

Texts that are joined with a mark between them can be told apart in what results, as long as none
of them holds the mark itself.
-/

namespace FlowDiagram

/-- Names without a mark are told from the text in which the mark separates them. -/
theorem splitOn_intercalate {separator : String} {mark : Char} (spelled : separator.toList = [mark])
    {path : List String} (some_ : path ≠ []) (plain : ∀ name ∈ path, mark ∉ name.toList) :
    (separator.intercalate path).toList.splitOn mark = path.map String.toList := by
  rw [String.toList_intercalate, spelled]
  refine List.splitOn_intercalate mark ?_ (by simpa using some_)
  intro letters member
  obtain ⟨name, listed, rfl⟩ := List.mem_map.mp member
  exact plain name listed

theorem eq_of_intercalate {separator : String} {mark : Char} (spelled : separator.toList = [mark])
    {first second : List String} (some_ : first ≠ []) (alsoSome : second ≠ [])
    (plain : ∀ name ∈ first, mark ∉ name.toList) (alsoPlain : ∀ name ∈ second, mark ∉ name.toList)
    (same : separator.intercalate first = separator.intercalate second) : first = second := by
  have letters := splitOn_intercalate spelled some_ plain
  rw [same, splitOn_intercalate spelled alsoSome alsoPlain] at letters
  exact (List.map_injective_iff.mpr fun _ _ => String.toList_inj.mp) letters.symm

theorem eq_nil_of_intercalate {separator : String} {mark : Char}
    (spelled : separator.toList = [mark]) {texts : List String} (filled : ∀ text ∈ texts, text ≠ "")
    (plain : ∀ text ∈ texts, mark ∉ text.toList) (same : separator.intercalate texts = "") :
    texts = [] := by
  by_contra some_
  have letters := splitOn_intercalate spelled some_ plain
  rw [same] at letters
  cases texts with
  | nil => exact some_ rfl
  | cons text rest =>
      refine filled text List.mem_cons_self (String.toList_inj.mp ?_)
      exact (List.cons.inj letters).1.symm

/-- Where no text is empty, also no texts at all are told from the others. -/
theorem eq_of_intercalate_filled {separator : String} {mark : Char}
    (spelled : separator.toList = [mark]) {first second : List String}
    (filled : ∀ text ∈ first, text ≠ "") (alsoFilled : ∀ text ∈ second, text ≠ "")
    (plain : ∀ text ∈ first, mark ∉ text.toList) (alsoPlain : ∀ text ∈ second, mark ∉ text.toList)
    (same : separator.intercalate first = separator.intercalate second) : first = second := by
  by_cases none_ : first = []
  · subst none_
    exact (eq_nil_of_intercalate spelled alsoFilled alsoPlain same.symm).symm
  · by_cases alsoNone : second = []
    · subst alsoNone
      exact eq_nil_of_intercalate spelled filled plain same
    · exact eq_of_intercalate spelled none_ alsoNone plain alsoPlain same

/-- A text without a mark is told from what stands behind the mark. -/
theorem eq_of_marked {mark : Char} {first second rest others : List Char} (plain : mark ∉ first)
    (alsoPlain : mark ∉ second) (same : first ++ mark :: rest = second ++ mark :: others) :
    first = second ∧ rest = others := by
  have cut {text rest : List Char} (plain : mark ∉ text) :
      (text ++ mark :: rest).takeWhile (· != mark) = text := by
    rw [List.takeWhile_append_of_pos, List.takeWhile_cons_of_neg (by simp), List.append_nil]
    intro c member
    simpa using fun isMark : c = mark => plain (isMark ▸ member)
  have prefixes : first = second := by rw [← cut plain, same, cut alsoPlain]
  subst prefixes
  exact ⟨rfl, (List.cons.inj (List.append_cancel_left same)).2⟩

end FlowDiagram
