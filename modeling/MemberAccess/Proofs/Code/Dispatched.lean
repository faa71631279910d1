import MemberAccess.Proofs.Accessor.Parts
import MemberAccess.Proofs.Catalog.MostDerived
/-!
# Code — dispatched calls

A call that dispatches pops the arguments of the method that it names and runs
the method that this resolves to. That works because whatever a slot is bound
to has the signature of every method in the slot. What it resolves to is also
where it ends: a binding is where its own slot leads, so that no slot, not even
that of an interface, keeps a method that an override has replaced.
-/

namespace MemberAccess

/-- A method resolves to itself, or to what its slot is bound to. -/
theorem TypeDef.resolve?_cases {t : TypeDef} {m n : Method} (hn : t.resolve? m = some n) :
    n = m ∨ ∃ s, m.slot = some s ∧ t.dispatch.find? s = some n := by
  unfold TypeDef.resolve? at hn
  cases hs : m.slot with
  | none =>
    simp only [hs] at hn
    exact .inl (Option.some.inj hn).symm
  | some s =>
    simp only [hs] at hn
    cases hb : t.dispatch.find? s with
    | some b =>
      rw [hb] at hn
      cases hn
      exact .inr ⟨s, rfl, hb⟩
    | none =>
      rw [hb] at hn
      cases hbody : m.body.isSome with
      | false => simp [hbody] at hn
      | true => exact .inl (by simpa [hbody, eq_comm] using hn)

namespace Catalog.Dispatches

variable {c : Catalog} {ids : Supply} {t u : TypeDef} {b m n : Method} {s : VirtualSlot}

/-- **What a slot is bound to has the signature of the slot.** -/
theorem signature_eq (hd : c.Dispatches ids) (ht : t ∈ c.types) (hb : t.dispatch.find? s = some b)
    (hu : u ∈ c.types) (hm : m ∈ u.allMethods) (hs : m.slot = some s) :
    m.signature = b.signature := by
  obtain ⟨k, hk, hks, hsignature⟩ := ((hd.table t ht).binding s b hb).known
  have hdeclared : k ∈ c.declared := by
    rcases List.mem_append.1 hk with hk | hk
    · exact lineageMethods_subset_declared hk
    · exact required_subset_declared (contracts_subset_required hk)
  exact (hd.slotted.signature m (hd.listed u hu hm) k hdeclared s hs hks).trans hsignature

/-- **What has been resolved resolves to itself.** -/
theorem resolve?_resolve? (hd : c.Dispatches ids) (ht : t ∈ c.types) (hn : t.resolve? m = some n) :
    t.resolve? n = some n := by
  rcases TypeDef.resolve?_cases hn with rfl | ⟨s, -, hb⟩
  · exact hn
  · have hbinding := (hd.table t ht).binding s n hb
    unfold TypeDef.resolve?
    cases hs : n.slot with
    | none => rfl
    | some s' => simp [hbinding.settled s' hs]

/-- **A method and what it resolves to pop the same.** -/
theorem callPops_eq (hd : c.Dispatches ids) (hc : c.WellFormed ids) (ht : t ∈ c.types)
    (hu : u ∈ c.types) (hm : m ∈ u.allMethods) (hn : t.resolve? m = some n) :
    n.parameters.length = m.parameters.length ∧ Op.callPops n = Op.callPops m := by
  rcases TypeDef.resolve?_cases hn with rfl | ⟨s, hs, hb⟩
  · exact ⟨rfl, rfl⟩
  · have hsignature := hd.signature_eq ht hb hu hm hs
    have hlength : m.parameters.length = n.parameters.length := by
      have htypes := congrArg List.length (Method.signature_eq_iff.1 hsignature).2
      simpa [Method.parameterTypes] using htypes
    have hstatic : m.isStatic = false := by
      cases hstatic : m.isStatic with
      | false => rfl
      | true => simp [(hc.methods u hu m hm).2 hstatic] at hs
    refine ⟨hlength.symm, ?_⟩
    rw [Op.callPops, Op.callPops, hlength, hstatic, ((hd.table t ht).binding s n hb).instance_]

end Catalog.Dispatches

namespace Code

variable {natives : Natives} {h : Heap} {o : ObjectRef} {m n : Method} {args : List Value}

/-- An instance call pops the arguments of the method that it names, and the
object. -/
theorem call_instance (hs : m.isStatic = false) (hargs : args.length = m.parameters.length)
    (dispatches : Bool) (c : Config) :
    call natives dispatches m ((c.push (.object o)).pushAll args) =
      Exec.mapFault .runtime (callMethod natives dispatches m (some o) args) >>= fun v =>
        pure (.next (if m.returnsVoid then c else c.push v)) := by
  simp only [call]
  rw [← hargs, popN_pushAll, hs]
  rfl

/-- **Dispatch is a direct call** of the method that is resolved. -/
theorem run_callMethod_of_resolve? (hn : (h.typeAt o).resolve? m = some n)
    (hbody : n = m ∨ n.body.isSome = true) :
    (callMethod natives true m (some o) args).run h =
      (callMethod natives false n (some o) args).run h := by
  have hcallee : callee? h true m (some o) = some n := hn
  simp only [callMethod, Exec.run_bind, Exec.run_ask, hcallee, Option.bind_some]
  cases hb : n.body with
  | some body => simp [callee?, hb]
  | none =>
    obtain rfl : n = m := hbody.resolve_right (by simp [hb])
    simp [callee?, hb]

end Code

/-- **Dispatch tables are in order.** In a built registry whatever a slot of a
type is bound to is an instance method with a body that the lineage of the type
declares. It has the name and the parameter types of every method in the slot,
and it is what its own slot is bound to. Hence what a method resolves to
resolves to itself, and a call that dispatches on an object of the type pops
exactly the arguments that the method it runs declares, besides the object. -/
theorem Registry.Built.dispatch_settled {r : Registry} (hr : r.Built) {t : TypeDef}
    (ht : t ∈ r.types) :
    (∀ s b, t.dispatch.find? s = some b →
      b.body.isSome = true ∧ b.isStatic = false ∧ (∃ u ∈ r.lineage t.handle, b ∈ u.methods) ∧
        (∀ u ∈ r.types, ∀ m ∈ u.allMethods, m.slot = some s →
          m.name = b.name ∧ m.parameterTypes = b.parameterTypes) ∧
        ∀ s', b.slot = some s' → t.dispatch.find? s' = some b) ∧
      ∀ u ∈ r.types, ∀ m ∈ u.allMethods, ∀ n, t.resolve? m = some n →
        t.resolve? n = some n ∧ Op.callPops n = Op.callPops m ∧
          ∀ (natives : Natives) (h : Heap) (o : ObjectRef) (args : List Value) (c : Config),
            h.typeAt o = t → m.isStatic = false → args.length = n.parameters.length →
            (Code.call natives true m ((c.push (.object o)).pushAll args)).run h =
              (Exec.mapFault .runtime (Code.callMethod natives false n (some o) args) >>= fun v =>
                pure (.next (if m.returnsVoid then c else c.push v))).run h := by
  obtain ⟨ids, hbuilt⟩ := hr
  have hd := hbuilt.dispatches
  refine ⟨fun s b hb => ?_, fun u hu m hm n hn => ?_⟩
  · have hbinding := (hd.table t ht).binding s b hb
    refine ⟨hbinding.body, hbinding.instance_, Catalog.mem_lineageMethods.1 hbinding.mem,
      fun u hu m hm hs => ?_, hbinding.settled⟩
    exact Method.signature_eq_iff.1 (hd.signature_eq ht hb hu hm hs)
  · obtain ⟨hlength, hpops⟩ := hd.callPops_eq hbuilt.wellFormed ht hu hm hn
    refine ⟨hd.resolve?_resolve? ht hn, hpops, fun natives h o args c htype hstatic hargs => ?_⟩
    subst htype
    have hbody : n = m ∨ n.body.isSome = true := by
      refine (TypeDef.resolve?_cases hn).imp_right ?_
      rintro ⟨s, -, hb⟩
      exact ((hd.table _ ht).binding s n hb).body
    rw [Code.call_instance hstatic (hargs.trans hlength), Exec.run_bind, Exec.run_bind,
      Exec.run_mapFault, Exec.run_mapFault, Code.run_callMethod_of_resolve? hn hbody]

namespace Sample

/-- An archive on a shelf of its own. -/
def shelved : Heap where
  objects := #[⟨archive, []⟩]

/-- Reading an archive through the interface of readers runs what a file does,
in whose slot the abstract base has left it. -/
theorem read_archive :
    archive ∈ shelfRegistry.types ∧ archive.dispatch.find? ⟨66⟩ = some fileRead ∧
      archive.dispatch.find? ⟨75⟩ = some fileRead ∧ ∀ natives : Natives,
        (Code.call natives true readerRead (Config.push {} (.object ⟨0⟩))).run shelved =
          (Exec.mapFault .runtime (Code.callMethod natives false fileRead (some ⟨0⟩) []) >>=
            fun _ => pure (.next {})).run shelved := by
  have ht : archive ∈ shelfRegistry.types := by decide
  obtain ⟨hbound, hcalls⟩ := Registry.Built.dispatch_settled shelfRegistry_built ht
  have hreader := hbound ⟨66⟩ fileRead (by decide)
  have hcall := hcalls reader (by decide) readerRead (by decide) fileRead (by decide)
  exact ⟨ht, by decide, hreader.2.2.2.2 ⟨75⟩ rfl, fun natives =>
    hcall.2.2 natives shelved ⟨0⟩ [] {} rfl rfl rfl⟩

end Sample

end MemberAccess
