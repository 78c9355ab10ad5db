import CadHarness.Lib.WindowsPath
import Mathlib.Data.Rat.Defs

/-!
# Invocations of the isolated helper

`_validate_worker_invocation` of `cad_harness.adapters.autocad_com`, and the paths that it lets through to the members
that open and export drawings. How Python folds the case of a text is a parameter.
-/

namespace CadHarness.Com
open CadHarness.Lib

/-- `_SCOPE_APPLICATION` and the other scopes of remote objects. -/
inductive Scope where
  | application
  | documents
  | document
  | acadState
  | layers
  | layer
  | styles
  | style
  | modelSpace
  | selection
  | entity
  | plot
  | iterator (of : String)
  deriving DecidableEq

/-- A decoded argument; `object` is a COM object or a VARIANT. -/
inductive Argument where
  | none
  | bool (b : Bool)
  | int (n : ℤ)
  | float (x : ℚ)
  | str (s : String)
  | list (xs : List Argument)
  | dict (entries : List (String × Argument))
  | object

namespace Argument

/-- `argument == n` -/
def EqualsInt (n : ℤ) : Argument → Prop
  | bool b => (if b then 1 else 0) = n
  | int m => m = n
  | float x => x = n
  | _ => False

/-- `isinstance(argument, int)`, without `bool`, and not negative -/
def IsIndex : Argument → Prop
  | int n => 0 ≤ n
  | _ => False

/-- `re.fullmatch(r"[0-9A-Fa-f]+", argument)` -/
def IsHandle : Argument → Prop
  | str s => s ≠ "" ∧ ∀ c ∈ s.toList, c.isDigit ∨ c ∈ "ABCDEFabcdef".toList
  | _ => False

def text? : Argument → Option String
  | str s => some s
  | _ => Option.none

def IsBool : Argument → Prop
  | bool _ => True
  | _ => False

end Argument

/-- `_RPC_METHOD_MEMBERS` with `_RPC_METHOD_ARITY` -/
def methodArity : Scope → String → Option Nat
  | .application, "GetAcadState" | .application, "Quit" => some 0
  | .documents, "Item" => some 1
  | .documents, "Open" => some 2
  | .document, "Close" => some 1
  | .document, "EndUndoMark" => some 0
  | .document, "GetVariable" | .document, "HandleToObject" => some 1
  | .document, "Save" => some 0
  | .document, "SaveAs" => some 1
  | .document, "SetVariable" => some 2
  | .document, "StartUndoMark" => some 0
  | .modelSpace, "AddArc" | .modelSpace, "AddDimAngular" => some 4
  | .modelSpace, "AddCircle" | .modelSpace, "AddLine" => some 2
  | .modelSpace, "AddDimAligned" | .modelSpace, "AddDimDiametric" | .modelSpace, "AddDimRadial"
  | .modelSpace, "AddDimRotated" | .modelSpace, "AddHatch" | .modelSpace, "AddText" => some 3
  | .modelSpace, "AddLightWeightPolyline" | .modelSpace, "AddPoint" => some 1
  | .selection, "Clear" => some 0
  | .selection, "Select" => some 1
  | .entity, "AppendOuterLoop" | .entity, "GetBulge" => some 1
  | .entity, "Delete" | .entity, "Evaluate" | .entity, "Update" => some 0
  | .plot, "PlotToFile" => some 1
  | _, _ => none

open Classical in
/-- The checks of the arguments of single members; what is raised if they fail -/
noncomputable def memberError (casefold : String → String) : Scope → String → List Argument → Option String
  | .document, "GetVariable", args =>
      if args.map Argument.text? = [some "INSUNITS"] then none else some "Only the INSUNITS query is allowed"
  | .document, "SetVariable", args =>
      if ∃ value, args = [.str "FILEDIA", value] ∧ value.EqualsInt 0 then none
      else some "Only acceptance FILEDIA suppression is allowed"
  | .selection, "Select", args =>
      if ∃ value, args = [value] ∧ value.EqualsInt 5 then none
      else some "Only the acceptance select-all mode is allowed"
  | .document, "HandleToObject", args =>
      if ∃ value, args = [value] ∧ value.IsHandle then none else some "Invalid AutoCAD handle"
  | .documents, "Item", args =>
      if ∃ value, args = [value] ∧ value.IsIndex then none else some "Invalid AutoCAD document index"
  | .documents, "Open", args =>
      if ∃ rawPath readOnly, args = [.str rawPath, readOnly] ∧ WindowsPath.IsAbsolute rawPath.toList ∧
          ¬ ((∃ rest, rawPath.toList = '\\' :: '\\' :: rest) ∨ ∃ rest, rawPath.toList = '/' :: '/' :: rest) ∧
          casefold (String.ofList (WindowsPath.suffix rawPath.toList)) ∈ [".dwg", ".dxf"] ∧ readOnly.IsBool then none
      else some "Invalid owned AutoCAD document open request"
  | .document, "SaveAs", args | .plot, "PlotToFile", args =>
      if ∃ path, args = [.str path] ∧ WindowsPath.IsAbsolute path.toList then none
      else some "AutoCAD export requires an absolute local path"
  | _, _, _ => none

/-- `_validate_worker_invocation`: what is raised, or nothing -/
noncomputable def validateWorkerInvocation (casefold : String → String) (scope : Scope) (name args kwargs : Argument) :
    Except String Unit :=
  match name with
  | .str member =>
      match methodArity scope member with
      | none => .error "Invalid isolated COM member invocation"
      | some arity =>
          match args, kwargs with
          | .list args, .dict [] =>
              if args.length ≠ arity then .error "Invalid isolated COM invocation arity"
              else
                match memberError casefold scope member args with
                | some message => .error message
                | none => .ok ()
          | _, _ => .error "Invalid isolated COM invocation arguments"
  | _ => .error "Invalid isolated COM member invocation"

/-! ## Paths -/

/-- The members that open and export drawings. -/
def pathMembers : List (Scope × String) := [(.documents, "Open"), (.document, "SaveAs"), (.plot, "PlotToFile")]

section

variable {casefold : String → String} {scope : Scope} {member : String} {args kwargs : Argument}

theorem validateWorkerInvocation_ok
    (h : validateWorkerInvocation casefold scope (.str member) args kwargs = .ok ()) :
    ∃ values, args = .list values ∧ memberError casefold scope member values = none := by
  unfold validateWorkerInvocation at h
  dsimp only at h
  split at h
  · cases h
  · split at h
    · next values =>
        split_ifs at h with harity
        split at h
        · cases h
        · next hnone => exact ⟨values, rfl, hnone⟩
    · cases h

/-- The first argument of these members is a path that is absolute. -/
theorem pathArgument_absolute (h : validateWorkerInvocation casefold scope (.str member) args kwargs = .ok ())
    (hmember : (scope, member) ∈ pathMembers) :
    ∃ path rest, args = .list (.str path :: rest) ∧ WindowsPath.IsAbsolute path.toList := by
  obtain ⟨values, rfl, hnone⟩ := validateWorkerInvocation_ok h
  simp only [pathMembers, List.mem_cons, List.not_mem_nil, or_false, Prod.mk.injEq] at hmember
  rcases hmember with ⟨rfl, rfl⟩ | ⟨rfl, rfl⟩ | ⟨rfl, rfl⟩
  · simp only [memberError] at hnone
    split_ifs at hnone with hopen
    obtain ⟨path, readOnly, rfl, habsolute, -⟩ := hopen
    exact ⟨path, [readOnly], rfl, habsolute⟩
  · simp only [memberError] at hnone
    split_ifs at hnone with hsave
    obtain ⟨path, rfl, habsolute⟩ := hsave
    exact ⟨path, [], rfl, habsolute⟩
  · simp only [memberError] at hnone
    split_ifs at hnone with hplot
    obtain ⟨path, rfl, habsolute⟩ := hplot
    exact ⟨path, [], rfl, habsolute⟩

end

/-- A path that is let through is on a volume with a letter exactly where it begins with a letter: the other paths are
shares and devices, and drives without a letter. -/
theorem workerPath_onDrive_iff {casefold : String → String} {scope : Scope} {member : String} {args kwargs : Argument}
    (h : validateWorkerInvocation casefold scope (.str member) args kwargs = .ok ())
    (hmember : (scope, member) ∈ pathMembers) :
    ∃ path rest, args = .list (.str path :: rest) ∧
      (WindowsPath.OnDrive path.toList ↔ ∃ letter more, letter.isAlpha = true ∧ path.toList = letter :: more) := by
  obtain ⟨path, rest, hargs, habsolute⟩ := pathArgument_absolute h hmember
  exact ⟨path, rest, hargs, WindowsPath.onDrive_iff habsolute⟩

theorem plotToFile_ok {path : String} (h : WindowsPath.IsAbsolute path.toList) :
    validateWorkerInvocation id .plot (.str "PlotToFile") (.list [.str path]) (.dict []) = .ok () := by
  have hnone : memberError id .plot "PlotToFile" [.str path] = none := if_pos ⟨path, rfl, h⟩
  simp [validateWorkerInvocation, methodArity, hnone]

theorem workerPath_onDrive_iff_plot : ∃ path rest,
    Argument.list [.str "C:/part.pdf"] = .list (.str path :: rest) ∧
      (WindowsPath.OnDrive path.toList ↔ ∃ letter more, letter.isAlpha = true ∧ path.toList = letter :: more) :=
  workerPath_onDrive_iff (plotToFile_ok (by decide)) (by decide)

/-- A drawing is exported to a share, and one is opened from a share whose separators differ. -/
theorem workerPath_share :
    (validateWorkerInvocation id .plot (.str "PlotToFile") (.list [.str "\\\\server\\share\\part.pdf"]) (.dict []) = .ok () ∧
      ¬ WindowsPath.OnDrive "\\\\server\\share\\part.pdf".toList) ∧
    validateWorkerInvocation id .documents (.str "Open") (.list [.str "\\/server/share/part.dwg", .bool true]) (.dict []) =
        .ok () ∧
      ¬ WindowsPath.OnDrive "\\/server/share/part.dwg".toList := by
  have hoff {path : List Char} (h : WindowsPath.IsAbsolute path)
      (hfirst : ∀ letter more, path = letter :: more → letter.isAlpha = false) : ¬ WindowsPath.OnDrive path := by
    rw [WindowsPath.onDrive_iff h]
    rintro ⟨letter, more, hletter, heq⟩
    rw [hfirst letter more heq] at hletter
    cases hletter
  refine ⟨⟨plotToFile_ok (by decide), hoff (by decide) ?_⟩, ?_, hoff (by decide) ?_⟩
  · rintro letter more heq
    obtain ⟨rfl, -⟩ := List.cons.inj heq
    rfl
  · have hnone : memberError id .documents "Open" [.str "\\/server/share/part.dwg", .bool true] = none := by
      refine if_pos ⟨"\\/server/share/part.dwg", .bool true, rfl, by decide, ?_, by decide, trivial⟩
      rintro (⟨rest, heq⟩ | ⟨rest, heq⟩)
      · exact absurd (List.cons.inj (List.cons.inj heq).2).1 (by decide)
      · exact absurd (List.cons.inj heq).1 (by decide)
    simp [validateWorkerInvocation, methodArity, hnone]
  · rintro letter more heq
    obtain ⟨rfl, -⟩ := List.cons.inj heq
    rfl

end CadHarness.Com
