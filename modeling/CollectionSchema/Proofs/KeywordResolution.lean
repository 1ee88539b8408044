import CollectionSchema.Proofs.Compilation
import CollectionSchema.Proofs.Places
import CollectionSchema.Proofs.Registration
import CollectionSchema.Proofs.UnknownAnnotations

/-!
# Which keywords a property gets

`Property.Asks` says which keywords a property asks for, by its own declaration alone: those
that its annotation spells out; without such an annotation none if the property is exempt or an
enumeration, and else the default ones of its type. A builder whose registry holds what the
property states gives exactly these (`asks_iff`). The registry of a compiled graph does so for
every record, so every node that stands for a property has the keywords the property asks for,
wherever its record is inlined (`asks_iff_of_compile`).
-/

namespace CollectionSchema

theorem Keywords.occursIn_iff {part text : List Char} : occursIn part text ↔ part <:+: text := by
  induction text with
  | nil => simp [occursIn]
  | cons c rest ih => simp [occursIn, List.infix_cons_iff, ih]

namespace Property

/-! ## What a property asks for -/

/-- No annotation constrains the property. -/
def Unconstrained (p : Property) : Prop :=
  ∀ a ∈ p.annotations, ∀ kind, a.kind? = some kind → kind = .exemption

def Exempt (p : Property) : Prop := ∃ a ∈ p.annotations, a.kind? = some .exemption

/-- The keywords that a property asks for, unless it is a record. -/
inductive Asks (p : Property) : Keywords → Prop
  | stated {a : Annotation} {k : Keywords} : a ∈ p.annotations → a.States k → p.Asks k
  | exempt : p.Unconstrained → p.Exempt → (∀ name, p.type ≠ .record name) → p.Asks {}
  | enumeration {name : String} : p.Unconstrained → p.type = .enumeration name → p.Asks {}
  | email : p.Unconstrained → ¬ p.Exempt → p.type = .primitive .string →
      "email".toList <:+: p.name.toList → p.Asks { pattern := some Keywords.emailPattern }
  | letters : p.Unconstrained → ¬ p.Exempt → p.type = .primitive .string →
      ¬ "email".toList <:+: p.name.toList → p.Asks { pattern := some Keywords.twoLettersPattern }
  | number {kind : Primitive} : p.Unconstrained → ¬ p.Exempt → p.type = .primitive kind →
      kind ∈ [Primitive.int, .long, .double, .float] → p.Asks { minimum := some (.integer 1) }
  | plain {kind : Primitive} : p.Unconstrained → p.type = .primitive kind →
      kind ∈ [Primitive.date, .boolean, .objectId] → p.Asks {}
  | list {element : TypeRef} : p.Unconstrained → p.type = .list element → p.Asks {}

variable {p : Property}

theorem unconstrained_iff : p.Unconstrained ↔ ∀ a ∈ p.annotations, a.constraintKind? = none := by
  refine forall₂_congr fun a _ => ?_
  unfold Annotation.constraintKind?
  cases a.kind? with
  | none => simp
  | some kind => cases kind <;> simp [AnnotationKind.isConstraint]

theorem isExempt_iff : p.isExempt = true ↔ p.Exempt := by
  simp [isExempt, Exempt, Annotation.isExemption]

theorem isExempt_eq_false_iff : p.isExempt = false ↔ ¬ p.Exempt := by
  rw [← isExempt_iff, Bool.not_eq_true]

end Property

/-! ## What the builder gives -/

namespace Builder

variable {registry : Registry} {key : FieldKey} {type : TypeRef}

theorem keywords_eq_stated {stated : Keywords} (h : registry.keywords? key = some stated) :
    keywords registry key type = stated := by
  simp only [keywords, h]

theorem keywords_eq_default (hnone : registry.keywords? key = none)
    (hexempt : registry.isExempt key = false) (htype : ∀ name, type ≠ .enumeration name) :
    keywords registry key type = (Keywords.default? key.field type.tag).getD {} := by
  unfold keywords
  split
  · next hsome =>
    rw [hnone] at hsome
    cases hsome
  · exact absurd rfl (htype _)
  · rw [hexempt]
    rfl

theorem keywords_eq_empty (hnone : registry.keywords? key = none)
    (hdefault : Keywords.default? key.field type.tag = none) :
    keywords registry key type = {} := by
  cases type <;> simp [keywords, hnone, hdefault]

end Builder

namespace Property

variable {registry : Registry} {record : String} {p : Property}

theorem Unconstrained.stated_eq_none (h : p.Unconstrained) {stated : Option Keywords}
    (hstated : p.keywords? record = .ok stated) : stated = none := by
  rcases keywords?_eq_ok hstated with ⟨hnone, -⟩ | ⟨a, ha, c, hc, -, -⟩
  · exact hnone
  · have hstates := Annotation.states_of_constraint_eq_ok hc
    exact absurd (unconstrained_iff.mp h a ha) hstates.constraintKind?_ne_none

/-- Whatever a property asks for is what the builder gives it. -/
theorem Asks.eq_keywords {k : Keywords} (h : p.Asks k)
    (hstated : p.keywords? record = .ok (registry.keywords? ⟨record, p.name⟩))
    (hexempt : registry.isExempt ⟨record, p.name⟩ = p.isExempt) :
    k = Builder.keywords registry ⟨record, p.name⟩ p.type := by
  cases h with
  | @stated a _ ha hk =>
    have hkind := hk.constraintKind?_ne_none
    rcases keywords?_eq_ok hstated with ⟨-, hnone⟩ | ⟨b, -, c, hc, hsome, honly⟩
    · exact absurd (hnone a ha) hkind
    · obtain rfl := honly a ha hkind
      have hstates := Annotation.states_of_constraint_eq_ok hc
      obtain rfl := hk.unique hstates
      exact (Builder.keywords_eq_stated hsome).symm
  | exempt hfree hmark hrecord =>
    have hnone := hfree.stated_eq_none hstated
    rw [isExempt_iff.mpr hmark] at hexempt
    cases htype : p.type with
    | record name => exact absurd htype (hrecord name)
    | _ => simp [Builder.keywords, hnone, hexempt]
  | enumeration hfree htype =>
    have hnone := hfree.stated_eq_none hstated
    simp [Builder.keywords, hnone, htype]
  | email hfree hmark htype hname =>
    have hnone := hfree.stated_eq_none hstated
    rw [isExempt_eq_false_iff.mpr hmark] at hexempt
    have hoccurs := Keywords.occursIn_iff.mpr hname
    rw [Builder.keywords_eq_default hnone hexempt (by simp [htype]), htype]
    simp only [TypeRef.tag, Primitive.tag, Keywords.default?, hoccurs]
    rfl
  | letters hfree hmark htype hname =>
    have hnone := hfree.stated_eq_none hstated
    rw [isExempt_eq_false_iff.mpr hmark] at hexempt
    have hoccurs := Bool.eq_false_iff.mpr (mt Keywords.occursIn_iff.mp hname)
    rw [Builder.keywords_eq_default hnone hexempt (by simp [htype]), htype]
    simp only [TypeRef.tag, Primitive.tag, Keywords.default?, hoccurs]
    rfl
  | @number kind hfree hmark htype hkind =>
    have hnone := hfree.stated_eq_none hstated
    rw [isExempt_eq_false_iff.mpr hmark] at hexempt
    have htag : kind.tag = .number := by
      cases kind <;> simp_all [Primitive.tag]
    rw [Builder.keywords_eq_default hnone hexempt (by simp [htype]), htype, TypeRef.tag, htag]
    rfl
  | @plain kind hfree htype hkind =>
    have hnone := hfree.stated_eq_none hstated
    have hdefault : Keywords.default? p.name p.type.tag = none := by
      rw [htype]
      cases kind <;> simp_all [TypeRef.tag, Primitive.tag, Keywords.default?]
    rw [Builder.keywords_eq_empty hnone hdefault]
  | list hfree htype =>
    have hnone := hfree.stated_eq_none hstated
    rw [htype, Builder.keywords_eq_empty hnone rfl]

theorem exists_asks (hstated : ∃ stated, p.keywords? record = .ok stated)
    (hrecord : ∀ name, p.type ≠ .record name) : ∃ k, p.Asks k := by
  obtain ⟨stated, hstated⟩ := hstated
  rcases keywords?_eq_ok hstated with ⟨-, hnone⟩ | ⟨a, ha, c, hc, -, -⟩
  · have hfree := unconstrained_iff.mpr hnone
    by_cases hmark : p.Exempt
    · exact ⟨_, .exempt hfree hmark hrecord⟩
    cases htype : p.type with
    | record name => exact absurd htype (hrecord name)
    | enumeration name => exact ⟨_, .enumeration hfree htype⟩
    | list element => exact ⟨_, .list hfree htype⟩
    | primitive kind =>
      cases kind with
      | string =>
        by_cases hname : "email".toList <:+: p.name.toList
        · exact ⟨_, .email hfree hmark htype hname⟩
        · exact ⟨_, .letters hfree hmark htype hname⟩
      | int | long | double | float => exact ⟨_, .number hfree hmark htype (by simp)⟩
      | date | boolean | objectId => exact ⟨_, .plain hfree htype (by simp)⟩
  · have hstates := Annotation.states_of_constraint_eq_ok hc
    exact ⟨_, .stated ha hstates⟩

/-- **A property gets exactly the keywords it asks for**, if the registry holds what it states. -/
theorem asks_iff (hstated : p.keywords? record = .ok (registry.keywords? ⟨record, p.name⟩))
    (hexempt : registry.isExempt ⟨record, p.name⟩ = p.isExempt)
    (hrecord : ∀ name, p.type ≠ .record name) {k : Keywords} :
    p.Asks k ↔ k = Builder.keywords registry ⟨record, p.name⟩ p.type := by
  constructor
  · intro h
    exact h.eq_keywords hstated hexempt
  · rintro rfl
    obtain ⟨k, hk⟩ := exists_asks ⟨_, hstated⟩ hrecord
    rwa [← hk.eq_keywords hstated hexempt]

end Property

namespace Site

theorem Fits.keywords_eq {g : Graph} {registry : Registry} {s : Record} {p : Property} {n : Node}
    (h : (Site.property s p).Fits g registry n) (hrecord : ∀ name, p.type ≠ .record name) :
    n.keywords = Builder.keywords registry ⟨s.name, p.name⟩ p.type := by
  cases h with
  | record hs _ =>
    cases htype : p.type with
    | record name => exact absurd htype (hrecord name)
    | _ => simp [Site.record?, htype, Graph.recordOf?] at hs
  | enumeration _ _ | list _ _ | primitive _ => rfl

end Site

namespace Graph

/-- **The node of every property has exactly the keywords that the property asks for**, wherever
its record is inlined, and annotations that are not recognized change nothing. -/
theorem asks_iff_of_compile {g : Graph} {c : Compiled} (h : g.compile = .ok c) :
    g.recognized.compile = .ok c ∧
    ∀ schema ∈ c.forest, ∃ root ∈ g.records, root.name = schema.record ∧
      ∀ place s p, g.Sites root place (.property s p) → (∀ name, p.type ≠ .record name) →
        (∃ n, schema.node.Holds place n) ∧
          ∀ n, schema.node.Holds place n → ∀ k, p.Asks k ↔ k = n.keywords := by
  refine ⟨(compile_recognized g).trans h, fun schema hschema => ?_⟩
  obtain ⟨hg, hregistry, -⟩ := compile_eq_ok_iff.mp h
  obtain ⟨root, hroot, hname, hbuild⟩ := exists_root_of_mem_forest h hschema
  refine ⟨root, hroot, hname, fun place s p hsite hrecord => ?_⟩
  obtain ⟨n, hn, -⟩ := exists_holds_of_site hg hroot hbuild hsite
  refine ⟨⟨n, hn⟩, fun m hm k => ?_⟩
  obtain ⟨hs, hp⟩ := hsite.mem_of_property hroot
  obtain ⟨hstated, hexempt⟩ := Registry.registered_of_collect hg hregistry hs hp
  rw [(fits_of_holds hg hroot hbuild hsite hm).keywords_eq hrecord]
  exact Property.asks_iff hstated hexempt hrecord

/-- The address of a station is matched as one, two levels below the root. -/
theorem asks_iff_of_compile_shipments :
    ∃ c, shipments.compile = .ok c ∧ ∃ schema ∈ c.forest, ∃ n,
      schema.node.Holds (.property (.items (.property .root "via")) "contact_email") n ∧
        n.keywords = { pattern := some Keywords.emailPattern } := by
  obtain ⟨c, hc, schema, hschema, hrecord⟩ := exists_compile_shipments
  obtain ⟨root, hroot, hname, hplaces⟩ := (asks_iff_of_compile hc).2 schema hschema
  rw [eq_shipment_of_name hroot (hname.trans hrecord)] at hplaces
  obtain ⟨via, hvia, haddress⟩ := inlinedAt_via
  have hcontact : ⟨"contact_email", .primitive .string, true, [⟨"Indexed", []⟩]⟩ ∈
      address.properties := by
    simp [address]
  have hsite : shipments.Sites shipment
      (.property (.items (.property .root "via")) "contact_email") (.property address _) :=
    .property hvia haddress hcontact
  obtain ⟨⟨n, hn⟩, hkeywords⟩ := hplaces _ _ _ hsite (by simp)
  refine ⟨c, hc, schema, hschema, n, hn, ((hkeywords n hn _).mp (.email ?_ ?_ rfl ?_)).symm⟩
  · simp [Property.Unconstrained, Annotation.kind?, AnnotationKind.ofName?, AnnotationKind.all,
      AnnotationKind.name, AnnotationKind.shortName]
  · simp [Property.Exempt, Annotation.kind?, AnnotationKind.ofName?, AnnotationKind.all,
      AnnotationKind.name, AnnotationKind.shortName]
  · exact ⟨"contact_".toList, [], by simp⟩

end Graph

end CollectionSchema
