import Accessibility.Proofs.Element.Tree

/-!
# Elements that equal themselves

A floating-point number that is undefined is not equal to itself, and neither is an element that
shows one somewhere.  Every other element equals itself.
-/

namespace Accessibility

theorem float_beq_self {value : Float} (isNumber : value.isNaN = false) :
    (value == value) = true := by
  change value.toModel.unpack.isNaN = false at isNumber
  change (value.toModel.unpack.compare value.toModel.unpack == some .eq) = true
  generalize value.toModel.unpack = unpacked at isNumber ⊢
  cases unpacked with
  | notANumber => cases isNumber
  | infinity sign => cases sign <;> rfl
  | zero sign => rfl
  | finite sign mantissa exponent =>
      have sameNumber :
          (compare exponent exponent).then (compare mantissa mantissa) = .eq := by
        rw [Std.compare_self, Std.compare_self]
        rfl
      cases sign with
      | positive => exact beq_iff_eq.mpr (congrArg some sameNumber)
      | negative => exact beq_iff_eq.mpr (congrArg (some ∘ Ordering.swap) sameNumber)

/-- Whether no coordinate of a frame is undefined. -/
def Frame.isNumeric (frame : Frame) : Bool :=
  !frame.x.isNaN && !frame.y.isNaN && !frame.width.isNaN && !frame.height.isNaN

theorem Frame.beq_self {frame : Frame} (numeric : frame.isNumeric = true) :
    (frame == frame) = true := by
  simp only [isNumeric, Bool.and_eq_true, Bool.not_eq_true'] at numeric
  obtain ⟨⟨⟨x, y⟩, width⟩, height⟩ := numeric
  change (frame.x == frame.x && (frame.y == frame.y && (frame.width == frame.width &&
    frame.height == frame.height))) = true
  simp only [float_beq_self, x, y, width, height, Bool.and_self]

/-- Whether a value is not an undefined number. -/
def Scalar.isNumeric : Scalar → Bool
  | .float value => !value.isNaN
  | _ => true

theorem Scalar.beq_self {scalar : Scalar} (numeric : scalar.isNumeric = true) :
    (scalar == scalar) = true := by
  cases scalar with
  | float value => exact float_beq_self (Bool.not_eq_true' _ |>.mp numeric)
  | boolean value => exact beq_self_eq_true value
  | integer value => exact beq_self_eq_true value
  | text value => exact beq_self_eq_true value

theorem Dictionary.beq_self {α : Type} [BEq α] {dictionary : Dictionary α}
    (same : ∀ entry ∈ dictionary.entries, (entry.2 == entry.2) = true) :
    (dictionary == dictionary) = true := by
  change (dictionary.entries == dictionary.entries) = true
  generalize dictionary.entries = entries at same ⊢
  induction entries with
  | nil => rfl
  | cons entry rest ih =>
      obtain ⟨sameFirst, sameRest⟩ := List.forall_mem_cons.mp same
      rw [List.cons_beq_cons, ih sameRest, Bool.and_true]
      change (entry.1 == entry.1 && entry.2 == entry.2) = true
      rw [sameFirst, beq_self_eq_true, Bool.and_self]

/-- Whether an element shows no undefined number. -/
def Properties.isNumeric (properties : Properties) : Bool :=
  properties.frame.isNumeric && properties.attributes.entries.all fun entry => entry.2.isNumeric

theorem Properties.beq_self {properties : Properties} (numeric : properties.isNumeric = true) :
    (properties == properties) = true := by
  rw [isNumeric, Bool.and_eq_true, List.all_eq_true] at numeric
  have frame := Frame.beq_self numeric.1
  have attributes := Dictionary.beq_self fun entry member =>
    Scalar.beq_self (numeric.2 entry member)
  have actions : (properties.actions == properties.actions) = true :=
    Dictionary.beq_self fun _ _ => rfl
  change (properties.role == properties.role && (properties.title == properties.title &&
    (properties.value == properties.value && (properties.description == properties.description &&
    (properties.identifier == properties.identifier && (properties.frame == properties.frame &&
    (properties.attributes == properties.attributes &&
      properties.actions == properties.actions))))))) = true
  simp only [frame, attributes, actions, beq_self_eq_true, Bool.and_self]

namespace Element

/-- Whether no undefined number is shown anywhere in a subtree. -/
def isNumeric (element : Element) : Bool :=
  element.preorder.all fun other => other.properties.isNumeric

theorem sameAll_self {elements : List Element}
    (same : ∀ element ∈ elements, (element == element) = true) :
    sameAll elements elements = true := by
  induction elements with
  | nil => rfl
  | cons element rest ih =>
      obtain ⟨sameFirst, sameRest⟩ := List.forall_mem_cons.mp same
      rw [sameAll, ih sameRest, Bool.and_true]
      exact sameFirst

/-- A subtree without undefined numbers equals itself. -/
theorem beq_self {element : Element} (numeric : element.isNumeric = true) :
    (element == element) = true := by
  rw [isNumeric, List.all_eq_true] at numeric
  induction element using induction with
  | step element ih =>
      have properties := Properties.beq_self (numeric element (mem_preorder_self element))
      have children : sameAll element.children element.children = true :=
        sameAll_self fun child isChild =>
          ih child isChild fun other below =>
            numeric other (mem_preorder_of_mem_children isChild below)
      cases element
      change (_ == _ && _ == _ && _ == _ && sameAll _ _) = true
      simp only [properties, children, beq_self_eq_true, Bool.and_self]

end Element

end Accessibility
