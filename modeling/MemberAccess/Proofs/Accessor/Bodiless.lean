import MemberAccess.Proofs.Accessor.Implemented
import MemberAccess.Proofs.Code.Dispatched
/-!
# Accessor — methods without a body

A class or struct answers for a method of its own or of a base when it, or a
base, declares a body in the slot of the method (`Dispatches.resolves_iff`).
Defining a type does not ask for one: what interfaces require has to be there,
but a method that an abstract class leaves open may stay open in a class that
is not abstract. A call of such a method on an instance never returns
(`Reflector.bodiless`).
-/

namespace MemberAccess

/-- **Which methods of a class or struct resolve to a body**: those in no slot,
and those in a slot that its lineage has a body for. -/
theorem Catalog.Dispatches.resolves_iff {c : Catalog} {ids : Supply} {t : TypeDef} {m : Method}
    (hd : c.Dispatches ids) (ht : t ∈ c.types) (hi : t.isInterface = false)
    (hm : m ∈ t.allMethods) :
    (∃ n, t.resolve? m = some n ∧ n.body.isSome = true) ↔
      m.slot = none ∨
        ∃ u ∈ c.lineage t.handle, ∃ n ∈ u.methods, n.slot = m.slot ∧ n.body.isSome = true := by
  have hmem := (hd.fromLineage t ht hi).subset hm
  cases hs : m.slot with
  | none =>
    have hself : t.resolve? m = some m := by simp [TypeDef.resolve?, hs]
    exact ⟨fun _ => .inl rfl, fun _ => ⟨m, hself, hd.bodied t ht hi m hmem hs⟩⟩
  | some s =>
    rw [hd.resolve?_eq ht hmem hs]
    constructor
    · rintro ⟨n, hfind, -⟩
      obtain ⟨u, hu, hn⟩ := mem_lineageMethods.1 (List.mem_of_find?_eq_some hfind)
      exact .inr ⟨u, hu, n, hn, Method.fills_iff.1 (List.find?_some hfind)⟩
    · rintro (hnone | ⟨u, hu, n, hn, hfills⟩)
      · cases hnone
      · have hfound : ((c.lineageMethods t.handle).find? (·.fills s)).isSome = true :=
          List.find?_isSome.2 ⟨n, mem_lineageMethods.2 ⟨u, hu, hn⟩, Method.fills_iff.2 hfills⟩
        obtain ⟨b, hb⟩ := Option.isSome_iff_exists.1 hfound
        exact ⟨b, hb, (Method.fills_iff.1 (List.find?_some hb)).2⟩

namespace Reflector

variable {r : Reflector} {t : TypeDef} {m : Method} {h : Heap} {o : ObjectRef}

/-- **Where no body is found, a body is missing.** -/
theorem run_runBody_of_bodiless (natives : Natives)
    (hm : ¬ ∃ n, (h.typeAt o).resolve? m = some n ∧ n.body.isSome = true) (args : List Value) :
    (m.runBody natives ⟨some o, args⟩).run h =
      some (.error (.missingImplementation m.name (h.typeAt o).name), h) := by
  have hnone : (h.implementation? m (some o)).bind (·.body) = none := by
    rw [Method.implementation?_object, Option.bind_eq_none_iff]
    intro n hn
    by_contra hbody
    exact hm ⟨n, hn, Option.isSome_iff_ne_none.2 hbody⟩
  simp only [Method.runBody, Exec.run_bind, Exec.run_ask, hnone, Exec.run_read]

/-- **A call that finds no body** is prepared, and that is all. -/
theorem run_directCall_of_bodiless (natives : Natives) {s : CallTypes} (hfit : s.Fit m)
    (hstatic : m.isStatic = false) (ho : h.Has o)
    (hm : ¬ ∃ n, (h.typeAt o).resolve? m = some n ∧ n.body.isSome = true)
    (args : Option (List Value)) :
    (m.directCall natives s (.object o) args).run h =
      (s.prepare (.object o) args >>= fun _ => (Exec.throw
        (.missingImplementation m.name (h.typeAt o).name) : Exec RuntimeFault Value)).run h := by
  unfold Method.directCall
  rw [Exec.run_bind, Exec.run_bind]
  cases hprepare : (s.prepare (.object o) args).run h with
  | none => rfl
  | some p =>
    obtain ⟨e | ⟨this, values⟩, h₁⟩ := p
    · rfl
    · obtain rfl : this = some o := this_of_prepare hfit hstatic hprepare
      -- the receiver still has its type when the body would start
      have htype := (s.within_prepare _ args h _ h₁ hprepare).typeAt_eq ho
      rw [← htype] at hm ⊢
      simp only [Exec.run_bind, run_runBody_of_bodiless natives hm, Exec.run_throw]

/-- **Methods without a body stay without one.** In a built registry a method
of a class or struct that is not static resolves to a method with a body if and
only if it is in no slot or some type of the lineage declares a body in its
slot. If it does, an invoker of the method comes to a missing implementation on an instance
of the type only where the body says so. If it does not, every such call that
is neither refused nor left unprepared ends at the missing implementation,
whether the type is abstract or not. -/
theorem bodiless (hr : r.registry.Built) (ht : t ∈ r.registry.types) (hi : t.isInterface = false)
    (hm : m ∈ t.allMethods) (hstatic : m.isStatic = false) :
    ((∃ n, t.resolve? m = some n ∧ n.body.isSome = true) ↔
      m.slot = none ∨ ∃ u ∈ r.registry.lineage t.handle, ∃ n ∈ u.methods,
        n.slot = m.slot ∧ n.body.isSome = true) ∧
    ∀ q a, q.subject? = some (.member (.method m)) → r.Compiles q a →
      ((∃ n, t.resolve? m = some n ∧ n.body.isSome = true) →
        ∀ (natives : Natives) (h h' : Heap) (o : ObjectRef) (args : Option (List Value))
          (fault : RuntimeFault), h.Has o → h.typeAt o = t → fault.IsMissing →
          (a.invoke natives (.object o) args).run h = some (.error (.runtime fault), h') →
          t.AnswersCall natives r.registry o h fault h' m args) ∧
      ((¬ ∃ n, t.resolve? m = some n ∧ n.body.isSome = true) →
        ∃ validate s, r.registry.callTypes? m = some s ∧
          ∀ (natives : Natives) (h : Heap) (o : ObjectRef) (args : Option (List Value)),
            h.Has o → h.typeAt o = t →
            (a.invoke natives (.object o) args).run h =
              (Exec.refuse ((Registry.invokerGuard m validate).verdict? (.invoker (.object o) args))
                (Exec.mapFault .runtime (s.prepare (.object o) args >>= fun _ =>
                  Exec.throw (.missingImplementation m.name t.name)))).run h) := by
  obtain ⟨ids, hbuilt⟩ := hr
  refine ⟨hbuilt.dispatches.resolves_iff ht hi hm, fun q a hq hc => ?_⟩
  obtain ⟨validate, hc⟩ := invoker_of_compiles hq hc
  refine ⟨fun hresolved natives h h' o args fault ho htype hfault hrun => ?_, fun hnone => ?_⟩
  · subst htype
    exact answersCall_of_resolve? ⟨ids, hbuilt⟩ ht hm hc ho hstatic hresolved hrun hfault
  · obtain ⟨s, hs, hcall⟩ := invoke_eq_refuse ⟨ids, hbuilt⟩ ht hm hc
    refine ⟨validate, s, hs, fun natives h o args ho htype => ?_⟩
    subst htype
    have hdirect := run_directCall_of_bodiless natives (Registry.fit_of_callTypes? hs) hstatic ho
      hnone args
    rw [hcall]
    cases (Registry.invokerGuard m validate).verdict? (.invoker (.object o) args) with
    | some e => rfl
    | none => rw [Exec.refuse_none, Exec.refuse_none, Exec.run_mapFault, Exec.run_mapFault, hdirect]

end Reflector

namespace Sample

/-- Reading an archive is up to the file in it; flushing it is up to nobody. -/
theorem bodiless_flush :
    (∃ n, archive.resolve? filterRead = some n ∧ n.body.isSome = true) ∧
      ¬ ∃ u ∈ shelfRegistry.lineage archive.handle, ∃ n ∈ u.methods,
        n.slot = flush.slot ∧ n.body.isSome = true := by
  have ht : archive ∈ (Reflector.registry ⟨shelfRegistry, {}⟩).types := by decide
  have hread := Reflector.bodiless shelfRegistry_built ht (m := filterRead) (by decide) (by decide)
    (by decide)
  have hflush := Reflector.bodiless shelfRegistry_built ht (m := flush) (by decide) (by decide)
    (by decide)
  refine ⟨hread.1.2 (.inr ⟨file, by decide, fileRead, by decide, by decide⟩), ?_⟩
  refine fun hbody => absurd (hflush.1.2 (.inr hbody)) ?_
  rintro ⟨n, hn, -⟩
  exact Option.some_ne_none n (hn.symm.trans (by decide))

/-- **An archive cannot be flushed.** It is not abstract, and a method of its
abstract base has no body on it, which is what a call of the method ends at. -/
theorem archive_not_flushed :
    (¬ ∀ (r : Registry) (t : TypeDef) (m : Method), r.Built → t ∈ r.types → t.isAbstract = false →
      m ∈ t.allMethods → m.isStatic = false → ∃ n, t.resolve? m = some n ∧ n.body.isSome = true) ∧
    ∃ a, Reflector.Compiles ⟨shelfRegistry, {}⟩ (.methodInvoker (some flush) none) a ∧
      ∀ natives, (a.invoke natives (.object ⟨0⟩) none).run shelved =
        some (.error (.runtime (.missingImplementation "flush" "Archive")), shelved) := by
  refine ⟨fun hall => ?_, _, ⟨{}, rfl⟩, fun natives => by rfl⟩
  obtain ⟨n, hn, -⟩ := hall shelfRegistry archive flush shelfRegistry_built (by decide) (by decide)
    (by decide) (by decide)
  exact Option.some_ne_none n (hn.symm.trans (by decide))

end Sample

end MemberAccess
