import CodeTidy.Instruction
import CodeTidy.Notebook.Duplicate
import CodeTidy.Proofs.Constant.Names
import CodeTidy.Proofs.Text.Digits

/-!
# `CodeTidy.Proofs.Constant.Fresh`: names that are made up

Three functions make up names: the wish for constants in a text, the constants
of a notebook, and the functions for its repeated blocks. None of them looks at
the names that the code uses already, so a name may be taken. The theorems:

* `NameMaker.nodup_made`: no function makes up a name twice.
* `NameMaker.made_fresh`: the names are new if the code uses none of those that
  may be made up.
* `NameMaker.exists_taken`: they need not be new otherwise.
-/

set_option autoImplicit false

namespace CodeTidy

open Constant

/-- The identifiers in the code of a text: the words outside its strings and comments. -/
def LiteralGrammar.identifiers (g : LiteralGrammar) (t : Text) : List Text :=
  (Pattern.word.hits (g.codeOnly t)).map Match.text

/-- A function that makes up names, with what it is given. -/
inductive NameMaker where
  /-- The wish to extract constants from a text. -/
  | extractConstants (family : Family) (t : Text)
  /-- The constants of a notebook. -/
  | hoistConstants (cells : List Cell)
  /-- The functions for repeated blocks of a notebook. -/
  | extractDuplicates (cells : List Cell)

namespace NameMaker

/-- The sources of the cells with code. -/
def codeOf (cells : List Cell) : List Text := (cells.filter Cell.isCode).map Cell.source

/-- The names that the function defines. -/
def made : NameMaker → List Text
  | extractConstants family t =>
    (repeated Instruction.minRepeats (numbersIn (Instruction.literals family) t)).map name
  | hoistConstants cells => (Notebook.hoistedNumbers cells).map name
  | extractDuplicates cells =>
    (List.range (Notebook.findDuplicates (codeOf cells)).length).map
      (fun i => Notebook.helperName (i + 1))

/-- The identifiers in the code that the function is given. -/
def given : NameMaker → List Text
  | extractConstants family t => (Instruction.literals family).identifiers t
  | hoistConstants cells => (codeOf cells).flatMap LiteralGrammar.python.identifiers
  | extractDuplicates cells => (codeOf cells).flatMap LiteralGrammar.python.identifiers

end NameMaker

/-- Whether a name may be made up: that of a number, or of a function. -/
def mayBeMade (w : Text) : Bool :=
  Text.startsWith w namePrefix || Text.startsWith w "helper_function_" ||
    (knownNames.map Prod.snd).contains w

/-- The name of a number may be made up. -/
theorem mayBeMade_name (n : Text) : mayBeMade (name n) = true := by
  have hknown : ∀ p ∈ knownNames, mayBeMade p.2 = true := by decide
  rcases name_cases n with hn | hn
  · exact hknown _ hn
  · have hstart : Text.startsWith (name n) namePrefix = true :=
      List.isPrefixOf_iff_prefix.mpr ⟨n, hn.symm⟩
    rw [mayBeMade, hstart, Bool.true_or, Bool.true_or]

/-- The name of a helper function may be made up. -/
theorem mayBeMade_helperName (n : Nat) : mayBeMade (Notebook.helperName n) = true := by
  have hstart : Text.startsWith (Notebook.helperName n) "helper_function_" = true :=
    List.isPrefixOf_iff_prefix.mpr ⟨Text.ofNat n, rfl⟩
  rw [mayBeMade, hstart, Bool.or_true, Bool.true_or]

/-- Functions with different numbers have different names. -/
theorem helperName_injective {n n' : Nat}
    (h : Notebook.helperName n = Notebook.helperName n') : n = n' := by
  have hdigits : Text.ofNat n = Text.ofNat n' := List.append_cancel_left h
  rw [← Text.digitsValue_ofNat n, hdigits, Text.digitsValue_ofNat]

namespace NameMaker

/-- No function makes up a name twice. -/
theorem nodup_made (maker : NameMaker) : maker.made.Nodup := by
  cases maker with
  | extractConstants family t => exact nodup_map_name (nodup_repeated _ _)
  | hoistConstants cells => exact nodup_map_name (nodup_repeated _ _)
  | extractDuplicates cells =>
    refine List.nodup_range.map ?_
    intro i j h
    have hnumber := helperName_injective h
    omega

/-- What a function makes up may be made up: it is the name of a number or of a helper function. -/
theorem mayBeMade_of_mem_made {maker : NameMaker} {w : Text} (h : w ∈ maker.made) :
    mayBeMade w = true := by
  cases maker with
  | extractDuplicates cells =>
    obtain ⟨i, -, rfl⟩ := List.mem_map.mp h
    exact mayBeMade_helperName _
  | _ =>
    obtain ⟨n, -, rfl⟩ := List.mem_map.mp h
    exact mayBeMade_name n

/-- The names that are made up are new, and different from each other, if the code uses none of
the names that may be made up. -/
theorem made_fresh {maker : NameMaker} (h : ∀ w ∈ maker.given, mayBeMade w = false) :
    maker.made.Nodup ∧ ∀ w ∈ maker.made, w ∉ maker.given := by
  refine ⟨maker.nodup_made, fun w hmade hgiven => ?_⟩
  have hmay := mayBeMade_of_mem_made hmade
  rw [h w hgiven] at hmay
  cases hmay

/-- The theorem at a text in which a number is repeated. -/
theorem made_fresh_calls :
    made (.extractConstants .python "f(404, 404, 404)") = ["CONSTANT_404".toList] ∧
      "CONSTANT_404".toList ∉ given (.extractConstants .python "f(404, 404, 404)") := by
  have hmade : made (.extractConstants .python "f(404, 404, 404)") = ["CONSTANT_404".toList] := by
    decide +kernel
  have hgiven : ∀ w ∈ given (.extractConstants .python "f(404, 404, 404)"),
      mayBeMade w = false := by
    decide +kernel
  refine ⟨hmade, (made_fresh hgiven).2 _ ?_⟩
  rw [hmade]
  exact List.mem_singleton_self _

/-- A name that the code uses already may be made up again: the number in the definition of a
constant counts as a repetition, and the constant is defined a second time. -/
theorem exists_taken :
    "CONSTANT_404".toList ∈
        made (.extractConstants .javascript "const CONSTANT_404 = 404;\nf(404, 404);") ∧
      "CONSTANT_404".toList ∈
        given (.extractConstants .javascript "const CONSTANT_404 = 404;\nf(404, 404);") ∧
      Instruction.extractConstants .javascript "const CONSTANT_404 = 404;\nf(404, 404);" =
        ("const CONSTANT_404 = 404;\n\nconst CONSTANT_404 = CONSTANT_404;\n" ++
          "f(CONSTANT_404, CONSTANT_404);").toList := by
  refine ⟨?_, ?_, ?_⟩ <;> decide +kernel

end NameMaker

end CodeTidy
