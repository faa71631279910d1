import MemberAccess.Proofs.Heap.Copy
/-!
# Coercion — what passes, and as what

Of built-in values none is an instance of a defined type, so what passes for
one is an object. Coercion either refuses a value on the heap as it is or lets
it pass: as a copy into a value type, as itself into any other (`Coerced`).
-/

namespace MemberAccess

namespace Heap

variable {h h₁ h₂ : Heap} {v v' : Value} {t : TypeDef} {a : TypeHandle}

/-- **Instances of a defined type are objects.** -/
theorem exists_object_of_isInstance (ha : a.isBuiltin = false) (hv : h.isInstance v a = true) :
    ∃ o, v = .object o ∧ a ∈ (h.typeAt o).ancestors := by
  have hne : ∀ b ∈ TypeHandle.builtins, ¬ (a = .object ∨ b = a) := by
    have hbuiltin : ∀ b ∈ TypeHandle.builtins, b.isBuiltin = true := by decide
    rintro b hb (rfl | rfl)
    · cases ha
    · rw [hbuiltin b hb] at ha
      cases ha
  cases v with
  | null => cases hv
  | object o => exact ⟨o, rfl, by simpa [isInstance, TypeDef.isSubtypeOf] using hv⟩
  | bool | int32 | int64 | float64 | str =>
    -- the type of a primitive is built in, and has no ancestor but `Object`
    exfalso
    simp only [isInstance, typeOf?, Bool.or_eq_true, beq_iff_eq, Option.some.injEq] at hv
    exact hne _ (by decide) hv

/-- Being an instance is a matter of the type, which growth and writes
keep. -/
theorem Keeps.isInstance_eq (hk : h.Keeps h₁) (hv : h.Reaches v) :
    h₁.isInstance v a = h.isInstance v a := by
  cases v with
  | object o => rw [isInstance, isInstance, hk.typeAt_eq o (hv o rfl)]
  | _ => rfl

/-- So is what it is called. -/
theorem Keeps.typeName_eq (hk : h.Keeps h₁) (hv : h.Reaches v) : h₁.typeName v = h.typeName v := by
  cases v with
  | object o => exact congrArg TypeDef.name (hk.typeAt_eq o (hv o rfl))
  | _ => rfl

/-- **A conversion never changes a value.** -/
theorem convert_eq_ok {k : Conversion} (hv : h.convert k v = .ok v') : v' = v := by
  have haccept : ∀ ok target, h.accept v ok target = .ok v' → v' = v := by
    intro ok target hok
    unfold accept at hok
    split at hok
    · exact (Except.ok.inj hok).symm
    · cases hok
  induction k with
  | value => exact (Except.ok.inj hv).symm
  | optional inner ih =>
    cases v with
    | null => exact (Except.ok.inj hv).symm
    | _ => exact ih hv
  | object =>
    cases v with
    | null => cases hv
    | _ => exact haccept _ _ hv
  | _ => exact haccept _ _ hv

/-- **What a value has become on its way into a type**: a copy with its
contents where that is a value type, else the value itself. -/
structure Coerced (h h' : Heap) (t : TypeDef) (v v' : Value) : Prop where
  copies : h.Copies h'
  reaches : h'.Reaches v'
  value : t.isValueType = true → ∃ c, h.Placed h' h.objects.size c v v' ∧
    h.contents? h.objects.size v = some c
  shared : t.isValueType = false → v' = v

/-- What has contents still has contents when it has been coerced. -/
theorem Coerced.hasContents (hcoerced : h.Coerced h₁ t v v') (hc : h.Closed) (hr : h.Reaches v)
    (hread : h.HasContents v) : h₁.HasContents v' := by
  cases ht : t.isValueType with
  | true =>
    obtain ⟨c, hplaced, -⟩ := hcoerced.value ht
    exact ⟨_, c, hplaced.contents⟩
  | false =>
    rw [hcoerced.shared ht]
    exact hread.grows hcoerced.copies.toGrows hc hr

end Heap

namespace Exec

variable {h : Heap} {v : Value} {t : TypeDef}

/-- A value that may not be stored is refused, and nothing happens. -/
theorem run_castValue_of_not (hv : h.isAdmissible v t = false) :
    (castValue v t).run h = some (.error (h.castFault v t.name), h) := by
  unfold castValue
  simp only [run_bind, run_ask, hv, Bool.false_eq_true, if_false, run_read]

/-- **A value that may be stored passes**, if it can be copied where it has to
be. -/
theorem run_castValue (hc : h.Closed) (hread : t.isValueType = true → h.HasContents v)
    (hr : h.Reaches v) (hv : h.isAdmissible v t = true) :
    ∃ v' h', (castValue v t).run h = some (.ok v', h') ∧ h.Coerced h' t v v' := by
  unfold castValue
  simp only [run_bind, run_ask, hv, if_true]
  cases ht : t.isValueType with
  | false =>
    exact ⟨v, h, rfl, .refl h, hr, fun hvalue => by simp [ht] at hvalue, fun _ => rfl⟩
  | true =>
    obtain ⟨c, v', h', hread, hdetach, hplaced⟩ := (hread ht).detached hc hr
    refine ⟨v', h', ?_, hplaced.copies, hplaced.reaches, fun _ => ⟨c, hplaced, hread⟩, ?_⟩
    · simp only [if_true, detach, run_alloc?, hdetach, Option.map_some]
    · simp [ht]

end Exec

end MemberAccess
