import Accessibility.Proofs.Element.Agreement

/-!
# Comparisons the other way round

Floating-point numbers compare the same both ways, undefined ones included, and so does everything
an element shows.  A subtree has therefore changed into another exactly when the other has changed
into it.
-/

namespace Accessibility

open Float.Model (UnpackedFloat)

/-- The other way round the order of two numbers is the opposite one. -/
theorem compare_unpacked_swap (unpacked other : UnpackedFloat) :
    other.compare unpacked = (unpacked.compare other).map Ordering.swap := by
  cases unpacked with
  | notANumber => cases other <;> rfl
  | infinity sign =>
      cases other with
      | notANumber => rfl
      | infinity otherSign => cases sign <;> cases otherSign <;> rfl
      | zero otherSign => cases sign <;> rfl
      | finite otherSign => cases sign <;> cases otherSign <;> rfl
  | zero sign =>
      cases other with
      | notANumber => rfl
      | infinity otherSign => cases otherSign <;> rfl
      | zero otherSign => rfl
      | finite otherSign => cases otherSign <;> rfl
  | finite sign mantissa exponent =>
      cases other with
      | notANumber => cases sign <;> rfl
      | infinity otherSign => cases sign <;> cases otherSign <;> rfl
      | zero otherSign => cases sign <;> rfl
      | finite otherSign otherMantissa otherExponent =>
          have opposite :
              (compare otherExponent exponent).then (compare otherMantissa mantissa) =
                ((compare exponent otherExponent).then (compare mantissa otherMantissa)).swap := by
            rw [Ordering.swap_then, ← Std.OrientedCmp.eq_swap, ← Std.OrientedCmp.eq_swap]
          cases sign <;> cases otherSign
          case positive.positive => exact congrArg some opposite
          case negative.negative => exact congrArg (some ∘ Ordering.swap) opposite
          all_goals rfl

theorem float_beq_comm (value other : Float) : (value == other) = (other == value) := by
  change (value.toModel.unpack.compare other.toModel.unpack == some .eq) =
    (other.toModel.unpack.compare value.toModel.unpack == some .eq)
  rw [compare_unpacked_swap value.toModel.unpack]
  cases value.toModel.unpack.compare other.toModel.unpack with
  | none => rfl
  | some ordering => cases ordering <;> rfl

theorem Frame.beq_comm (frame other : Frame) : (frame == other) = (other == frame) := by
  change (frame.x == other.x && (frame.y == other.y && (frame.width == other.width &&
    frame.height == other.height))) = (other.x == frame.x && (other.y == frame.y &&
      (other.width == frame.width && other.height == frame.height)))
  rw [float_beq_comm frame.x, float_beq_comm frame.y, float_beq_comm frame.width,
    float_beq_comm frame.height]

theorem Scalar.beq_comm (scalar other : Scalar) : (scalar == other) = (other == scalar) := by
  cases scalar with
  | boolean value =>
      cases other with
      | boolean otherValue =>
          change (value == otherValue) = (otherValue == value)
          exact Bool.beq_comm
      | _ => rfl
  | integer value =>
      cases other with
      | integer otherValue =>
          change (value == otherValue) = (otherValue == value)
          exact Bool.beq_comm
      | _ => rfl
  | float value =>
      cases other with
      | float otherValue => exact float_beq_comm value otherValue
      | _ => rfl
  | text value =>
      cases other with
      | text otherValue =>
          change (value == otherValue) = (otherValue == value)
          exact Bool.beq_comm
      | _ => rfl

theorem Dictionary.beq_comm {α : Type} [BEq α]
    (symmetric : ∀ value other : α, (value == other) = (other == value))
    (dictionary other : Dictionary α) : (dictionary == other) = (other == dictionary) := by
  change (dictionary.entries == other.entries) = (other.entries == dictionary.entries)
  generalize dictionary.entries = entries
  generalize other.entries = others
  induction entries generalizing others with
  | nil => cases others <;> rfl
  | cons entry rest ih =>
      cases others with
      | nil => rfl
      | cons otherEntry otherRest =>
          rw [List.cons_beq_cons, List.cons_beq_cons, ih]
          change (entry.1 == otherEntry.1 && entry.2 == otherEntry.2 && _) =
            (otherEntry.1 == entry.1 && otherEntry.2 == entry.2 && _)
          rw [Bool.beq_comm (a := entry.1), symmetric entry.2]

theorem Properties.beq_comm (properties other : Properties) :
    (properties == other) = (other == properties) := by
  have attributes := Dictionary.beq_comm Scalar.beq_comm properties.attributes other.attributes
  have actions := Dictionary.beq_comm (fun _ _ => rfl) properties.actions other.actions
  change (properties.role == other.role && (properties.title == other.title &&
    (properties.value == other.value && (properties.description == other.description &&
    (properties.identifier == other.identifier && (properties.frame == other.frame &&
    (properties.attributes == other.attributes && properties.actions == other.actions))))))) =
    (other.role == properties.role && (other.title == properties.title &&
    (other.value == properties.value && (other.description == properties.description &&
    (other.identifier == properties.identifier && (other.frame == properties.frame &&
    (other.attributes == properties.attributes && other.actions == properties.actions)))))))
  rw [attributes, actions, Frame.beq_comm, Bool.beq_comm (a := properties.role),
    Bool.beq_comm (a := properties.title), Bool.beq_comm (a := properties.value),
    Bool.beq_comm (a := properties.description), Bool.beq_comm (a := properties.identifier)]

namespace Element

variable {before after : Element}

theorem LooksLike.symm (looksLike : before.LooksLike after) : after.LooksLike before := by
  rcases looksLike with ⟨sameProperties, sameLength⟩
  rw [Element.sameProperties, Properties.beq_comm] at sameProperties
  exact ⟨sameProperties, sameLength.symm⟩

theorem Agrees.symm (agrees : before.Agrees after) : after.Agrees before := by
  intro position
  have relates := agrees position
  generalize before.at? position = previous at relates ⊢
  generalize after.at? position = current at relates ⊢
  cases relates with
  | none => exact Option.Rel.none
  | some looksLike => exact Option.Rel.some looksLike.symm

theorem agrees_comm : before.Agrees after ↔ after.Agrees before :=
  ⟨Agrees.symm, Agrees.symm⟩

/-- The comparison of two subtrees says the same both ways. -/
theorem changed_comm (before after : Element) : before.changed after = after.changed before := by
  rw [Bool.eq_iff_iff, ← not_iff_not, Bool.not_eq_true, Bool.not_eq_true,
    changed_eq_false_iff_agrees, changed_eq_false_iff_agrees, agrees_comm]

end Element

end Accessibility
