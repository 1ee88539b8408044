import CollectionSchema.Proofs.Resolution

/-!
# Places in a node

A place is a way down from the root of a node, through properties and list elements. What a
node holds at a place (`Node.Holds`) is one thing, what the declarations put there
(`Graph.Sites`) another. For the node that is built for a record they agree:

* `exists_site_of_holds`: everything the node holds is declared, and fits its declaration.
* `exists_holds_of_site`: everything that is declared is held.
* `holds_iff_of_inlinedAt`: where a record is inlined the node holds one node, that of the record.

So an inlined record has the same node wherever it stands (`inlined_node_eq_build`).
-/

namespace CollectionSchema

/-! ## Places -/

/-- The root of a node, the property with a name of what stands at a place, or the elements of
the list there. -/
inductive Place where
  | root
  | property (outer : Place) (name : String)
  | items (outer : Place)
deriving DecidableEq, Repr

namespace Node

/-- What a node holds at a place. -/
inductive Holds (n : Node) : Place → Node → Prop
  | root : n.Holds .root n
  | property {outer : Place} {m c : Node} {name : String} {properties : Properties} :
      n.Holds outer m → m.properties = some properties → (name, c) ∈ properties →
        n.Holds (.property outer name) c
  | items {outer : Place} {m c : Node} :
      n.Holds outer m → m.items = some c → n.Holds (.items outer) c

/-- A node that stands directly in another. -/
inductive Inside (n : Node) : Node → Prop
  | property {c : Node} {name : String} {properties : Properties} :
      n.properties = some properties → (name, c) ∈ properties → n.Inside c
  | items {c : Node} : n.items = some c → n.Inside c

theorem Inside.exists_holds {n c m : Node} {inner : Place} (h : n.Inside c)
    (hm : c.Holds inner m) : ∃ place, n.Holds place m := by
  induction hm with
  | root =>
    cases h with
    | property hproperties hc => exact ⟨_, .property .root hproperties hc⟩
    | items hitems => exact ⟨_, .items .root hitems⟩
  | property _ hproperties hmem ih =>
    obtain ⟨outer, houter⟩ := ih
    exact ⟨_, .property houter hproperties hmem⟩
  | items _ hitems ih =>
    obtain ⟨outer, houter⟩ := ih
    exact ⟨_, .items houter hitems⟩

theorem Holds.eq_or_exists_inside {n m : Node} {place : Place} (h : n.Holds place m) :
    m = n ∨ ∃ c inner, n.Inside c ∧ c.Holds inner m := by
  induction h with
  | root => exact .inl rfl
  | property _ hproperties hmem ih =>
    rcases ih with rfl | ⟨c, inner, hc, houter⟩
    · exact .inr ⟨_, .root, .property hproperties hmem, .root⟩
    · exact .inr ⟨c, _, hc, .property houter hproperties hmem⟩
  | items _ hitems ih =>
    rcases ih with rfl | ⟨c, inner, hc, houter⟩
    · exact .inr ⟨_, .root, .items hitems, .root⟩
    · exact .inr ⟨c, _, hc, .items houter hitems⟩

/-- What holds of all that a node holds holds of the node, and of all that the nodes in it hold. -/
theorem forall_holds_iff {n : Node} {P : Node → Prop} : (∀ place m, n.Holds place m → P m) ↔
    P n ∧ ∀ c, n.Inside c → ∀ place m, c.Holds place m → P m := by
  constructor
  · intro h
    refine ⟨h .root n .root, ?_⟩
    intro c hc inner m hm
    obtain ⟨place, hplace⟩ := hc.exists_holds hm
    exact h place m hplace
  · rintro ⟨hn, hinside⟩ place m hm
    rcases hm.eq_or_exists_inside with rfl | ⟨c, inner, hc, hm⟩
    · exact hn
    · exact hinside c hc inner m hm

/-- The nodes in a node are smaller, so what holds of a node whenever it holds of those in it holds
of every node. -/
theorem induction {P : Node → Prop} (step : ∀ n : Node, (∀ c, n.Inside c → P c) → P n)
    (n : Node) : P n := by
  generalize hsize : sizeOf n = size
  induction size using Nat.strongRecOn generalizing n with
  | ind size ih =>
    subst hsize
    refine step n ?_
    intro c hc
    have hlt : sizeOf c < sizeOf n := by
      obtain ⟨type, required, properties, enumValues, keywords, items⟩ := n
      cases hc with
      | property hproperties hmem =>
        obtain rfl := hproperties
        have hentry := List.sizeOf_lt_of_mem hmem
        simp only [Prod.mk.sizeOf_spec] at hentry
        simp only [mk.sizeOf_spec, Option.some.sizeOf_spec]
        omega
      | items hitems =>
        obtain rfl := hitems
        simp only [mk.sizeOf_spec, Option.some.sizeOf_spec]
        omega
    exact ih (sizeOf c) hlt c rfl

def property? (n : Node) (name : String) : Option Node :=
  n.properties.bind (Properties.get? · name)

theorem property?_eq_some_iff {n c : Node} {properties : Properties} {name : String}
    (hproperties : n.properties = some properties) (hnames : properties.names.Nodup) :
    n.property? name = some c ↔ (name, c) ∈ properties := by
  simp only [property?, hproperties, Option.bind_some, Properties.get?]
  clear hproperties
  induction properties with
  | nil => simp
  | cons entry rest ih =>
    obtain ⟨other, old⟩ := entry
    simp only [Properties.names, List.map_cons, List.nodup_cons] at hnames ih
    by_cases hname : name = other
    · subst hname
      have habsent : (name, c) ∉ rest := fun hmem => hnames.1 (List.mem_map.mpr ⟨_, hmem, rfl⟩)
      simp [habsent, eq_comm]
    · have hbeq : (name == other) = false := by simpa using hname
      simp [List.lookup_cons, hbeq, hname, ih hnames.2]

end Node

/-! ## Sites -/

/-- What is declared at a place: a record, a property of a record or the elements of a list. -/
inductive Site where
  | record (r : Record)
  | property (owner : Record) (p : Property)
  | element (type : TypeRef)

def Graph.recordOf? (g : Graph) : TypeRef → Option Record
  | .record name => g.record? name
  | _ => none

def Site.record? (g : Graph) : Site → Option Record
  | .record r => some r
  | .property _ p => g.recordOf? p.type
  | .element type => g.recordOf? type

namespace Graph

/-- What is declared at the places of a record: its properties, where records stand their
properties, and where lists stand their elements. -/
inductive Sites (g : Graph) (r : Record) : Place → Site → Prop
  | root : g.Sites r .root (.record r)
  | property {outer : Place} {site : Site} {s : Record} {p : Property} :
      g.Sites r outer site → site.record? g = some s → p ∈ s.properties →
        g.Sites r (.property outer p.name) (.property s p)
  | items {outer : Place} {s : Record} {p : Property} {element : TypeRef} :
      g.Sites r outer (.property s p) → p.type = .list element →
        g.Sites r (.items outer) (.element element)

/-- The record that is inlined at a place of another, at any depth. -/
def InlinedAt (g : Graph) (r : Record) (place : Place) (s : Record) : Prop :=
  ∃ site, g.Sites r place site ∧ site.record? g = some s

variable {g : Graph}

theorem mem_of_recordOf? {type : TypeRef} {s : Record} (h : g.recordOf? type = some s) :
    s ∈ g.records := by
  cases type with
  | record name => exact mem_of_record? h
  | _ => cases h

theorem Sites.mem_of_record? {r s : Record} {place : Place} {site : Site} (hr : r ∈ g.records)
    (h : g.Sites r place site) (hs : site.record? g = some s) : s ∈ g.records := by
  cases h with
  | root =>
    cases hs
    exact hr
  | property _ _ _ => exact mem_of_recordOf? hs
  | items _ _ => exact mem_of_recordOf? hs

theorem Sites.mem_of_property {r s : Record} {place : Place} {p : Property} (hr : r ∈ g.records)
    (h : g.Sites r place (.property s p)) : s ∈ g.records ∧ p ∈ s.properties := by
  cases h with
  | property hsite hs hp => exact ⟨hsite.mem_of_record? hr hs, hp⟩

/-- Distinct names leave one declaration for a place. -/
theorem Sites.unique (hg : g.WellFormed) {r : Record} (hr : r ∈ g.records) {place : Place}
    {site site' : Site} (h : g.Sites r place site) (h' : g.Sites r place site') :
    site = site' := by
  induction h generalizing site' with
  | root =>
    cases h'
    rfl
  | @property outer site s p hsite hs hp ih =>
    generalize hplace : Place.property outer p.name = place at h'
    cases h' with
    | @property _ _ t q hsite' ht hq =>
      obtain ⟨rfl, hname⟩ := Place.property.inj hplace
      obtain rfl := ih hsite'
      obtain rfl : s = t := Option.some.inj (hs.symm.trans ht)
      rw [hg.property_eq (hsite.mem_of_record? hr hs) hp hq hname]
    | _ => cases hplace
  | items hsite hlist ih =>
    cases h' with
    | items hsite' hlist' =>
      obtain ⟨rfl, rfl⟩ := Site.property.inj (ih hsite')
      rw [hlist] at hlist'
      cases hlist'
      rfl

end Graph

/-! ## Nodes that fit their sites -/

/-- The node says what is declared at the site. Only records and the elements of lists put
other nodes inside. -/
inductive Site.Fits (g : Graph) (registry : Registry) : Site → Node → Prop
  | record {site : Site} {s : Record} {n : Node} :
      site.record? g = some s → g.build registry s = .ok n → site.Fits g registry n
  | enumeration {s : Record} {p : Property} {name : String} {e : Enumeration} :
      p.type = .enumeration name → g.enum? name = some e →
        (Site.property s p).Fits g registry
          { Builder.leaf registry ⟨s.name, p.name⟩ p with
            enumValues := some (Builder.enumValues e p.nullable) }
  | list {s : Record} {p : Property} {element : TypeRef} {c : Node} :
      p.type = .list element → (Site.element element).Fits g registry c →
        (Site.property s p).Fits g registry
          { Builder.leaf registry ⟨s.name, p.name⟩ p with items := some c }
  | primitive {s : Record} {p : Property} {kind : Primitive} :
      p.type = .primitive kind →
        (Site.property s p).Fits g registry (Builder.leaf registry ⟨s.name, p.name⟩ p)
  | element {type : TypeRef} :
      g.recordOf? type = none → type.tag ≠ .object →
        (Site.element type).Fits g registry (.ofType ⟨type.tag, false⟩)

namespace Site

variable {g : Graph} {registry : Registry}

theorem fits_of_elements_eq_ok {key : FieldKey} {type : TypeRef} {n : Node}
    (h : Builder.elements g (g.buildNamed registry key) key type = .ok n) :
    (Site.element type).Fits g registry n := by
  rw [Builder.elements_eq_ok_iff] at h
  cases type with
  | record name =>
    obtain ⟨s, hs, hbuild⟩ := Graph.buildNamed_eq_ok_iff.mp h
    exact .record hs hbuild
  | enumeration name =>
    obtain ⟨-, rfl⟩ := h
    exact .element rfl (by simp [TypeRef.tag])
  | list element =>
    obtain rfl := h
    exact .element rfl (by simp [TypeRef.tag])
  | primitive kind =>
    obtain rfl := h
    exact .element rfl (by cases kind <;> simp [TypeRef.tag, Primitive.tag])

theorem fits_of_property_eq_ok {s : Record} {p : Property} {n : Node}
    (h : Builder.property g registry (g.buildNamed registry ⟨s.name, p.name⟩)
      ⟨s.name, p.name⟩ p = .ok n) : (Site.property s p).Fits g registry n := by
  rw [Builder.property_eq_ok_iff] at h
  cases htype : p.type with
  | record name =>
    rw [htype] at h
    obtain ⟨t, ht, hbuild⟩ := Graph.buildNamed_eq_ok_iff.mp h
    exact .record (by rw [Site.record?, htype]; exact ht) hbuild
  | enumeration name =>
    rw [htype] at h
    obtain ⟨e, he, rfl⟩ := h
    exact .enumeration htype he
  | list element =>
    rw [htype] at h
    obtain ⟨c, hc, rfl⟩ := h
    exact .list htype (fits_of_elements_eq_ok hc)
  | primitive kind =>
    rw [htype] at h
    obtain rfl := h
    exact .primitive htype

variable {site : Site} {n : Node}

/-- Where a record is inlined, the node is that of the record. -/
theorem Fits.build_eq_ok (h : site.Fits g registry n) {s : Record}
    (hs : site.record? g = some s) : g.build registry s = .ok n := by
  cases h with
  | record hs' hbuild =>
    rw [hs] at hs'
    cases hs'
    exact hbuild
  | element hnone _ => simp [Site.record?, hnone] at hs
  | enumeration htype _ | list htype _ | primitive htype =>
    simp [Site.record?, htype, Graph.recordOf?] at hs

theorem Fits.exists_record (h : site.Fits g registry n) {properties : Properties}
    (hproperties : n.properties = some properties) : ∃ s, site.record? g = some s := by
  cases h with
  | record hs _ => exact ⟨_, hs⟩
  | _ => cases hproperties

theorem Fits.exists_list (h : site.Fits g registry n) {c : Node} (hitems : n.items = some c) :
    ∃ s p element, site = .property s p ∧ p.type = .list element ∧
      (Site.element element).Fits g registry c := by
  cases h with
  | record _ hbuild =>
    obtain ⟨nodes, -, rfl⟩ := Builder.buildFrom_eq_ok_iff.mp hbuild
    cases hitems
  | list htype hc =>
    cases hitems
    exact ⟨_, _, _, rfl, htype, hc⟩
  | _ => cases hitems

theorem Fits.exists_items {s : Record} {p : Property} (h : (Site.property s p).Fits g registry n)
    {element : TypeRef} (htype : p.type = .list element) :
    ∃ c, n.items = some c ∧ (Site.element element).Fits g registry c := by
  cases h with
  | record hs _ => simp [Site.record?, htype, Graph.recordOf?] at hs
  | list htype' hc =>
    rw [htype] at htype'
    cases htype'
    exact ⟨_, rfl, hc⟩
  | enumeration htype' _ | primitive htype' =>
    rw [htype] at htype'
    cases htype'

end Site

/-! ## What is held is what is declared -/

namespace Graph

variable {g : Graph} {registry : Registry} {r : Record} {n : Node}

theorem fits_properties (hg : g.WellFormed) (hr : r ∈ g.records)
    (h : g.build registry r = .ok n) :
    ∃ nodes, n = .object (Builder.required r) nodes ∧ List.Forall₂
      (fun p e => e.1 = p.name ∧ (Site.property r p).Fits g registry e.2) r.properties nodes := by
  obtain ⟨nodes, hnodes, hn⟩ := build_eq_ok (hg.properties r hr) h
  exact ⟨nodes, hn, hnodes.imp fun p e he => ⟨he.1, Site.fits_of_property_eq_ok he.2⟩⟩

/-- **Whatever the node of a record holds is declared there.** -/
theorem exists_site_of_holds (hg : g.WellFormed) (hr : r ∈ g.records)
    (h : g.build registry r = .ok n) {place : Place} {m : Node} (hm : n.Holds place m) :
    ∃ site, g.Sites r place site ∧ site.Fits g registry m := by
  induction hm with
  | root => exact ⟨.record r, .root, .record rfl h⟩
  | property _ hproperties hc ih =>
    obtain ⟨site, hsite, hfits⟩ := ih
    obtain ⟨s, hs⟩ := hfits.exists_record hproperties
    obtain ⟨nodes, rfl, hnodes⟩ :=
      fits_properties hg (hsite.mem_of_record? hr hs) (hfits.build_eq_ok hs)
    cases hproperties
    obtain ⟨p, hp, rfl, hfits⟩ := Outcome.exists_source hnodes hc
    exact ⟨.property s p, .property hsite hs hp, hfits⟩
  | items _ hitems ih =>
    obtain ⟨site, hsite, hfits⟩ := ih
    obtain ⟨s, p, element, rfl, htype, hfits⟩ := hfits.exists_list hitems
    exact ⟨.element element, .items hsite htype, hfits⟩

/-- **Whatever is declared at a place is held there.** -/
theorem exists_holds_of_site (hg : g.WellFormed) (hr : r ∈ g.records)
    (h : g.build registry r = .ok n) {place : Place} {site : Site}
    (hsite : g.Sites r place site) : ∃ m, n.Holds place m ∧ site.Fits g registry m := by
  induction hsite with
  | root => exact ⟨n, .root, .record rfl h⟩
  | @property outer site s p hsite hs hp ih =>
    obtain ⟨m, hm, hfits⟩ := ih
    obtain ⟨nodes, rfl, hnodes⟩ :=
      fits_properties hg (hsite.mem_of_record? hr hs) (hfits.build_eq_ok hs)
    obtain ⟨⟨name, c⟩, hc, rfl, hfits⟩ := Outcome.exists_result hnodes hp
    exact ⟨c, .property hm rfl hc, hfits⟩
  | items _ htype ih =>
    obtain ⟨m, hm, hfits⟩ := ih
    obtain ⟨c, hc, hfits⟩ := hfits.exists_items htype
    exact ⟨c, .items hm hc, hfits⟩

theorem fits_of_holds (hg : g.WellFormed) (hr : r ∈ g.records) (h : g.build registry r = .ok n)
    {place : Place} {site : Site} (hsite : g.Sites r place site) {m : Node}
    (hm : n.Holds place m) : site.Fits g registry m := by
  obtain ⟨site', hsite', hfits⟩ := exists_site_of_holds hg hr h hm
  rwa [hsite.unique hg hr hsite']

/-- Where a record is inlined, the node holds exactly the node of that record. -/
theorem holds_iff_of_inlinedAt (hg : g.WellFormed) (hr : r ∈ g.records)
    (h : g.build registry r = .ok n) {place : Place} {s : Record}
    (hplace : g.InlinedAt r place s) :
    ∃ m, g.build registry s = .ok m ∧ ∀ c, n.Holds place c ↔ c = m := by
  obtain ⟨site, hsite, hs⟩ := hplace
  obtain ⟨m, hm, hfits⟩ := exists_holds_of_site hg hr h hsite
  have hbuild := hfits.build_eq_ok hs
  refine ⟨m, hbuild, fun c => ⟨fun hc => ?_, fun hc => hc ▸ hm⟩⟩
  have hbuild' := (fits_of_holds hg hr h hsite hc).build_eq_ok hs
  rw [hbuild] at hbuild'
  cases hbuild'
  rfl

theorem exists_property?_eq_some (hg : g.WellFormed) (hr : r ∈ g.records)
    (h : g.build registry r = .ok n) {p : Property} (hp : p ∈ r.properties) :
    ∃ c, n.property? p.name = some c ∧ (Site.property r p).Fits g registry c := by
  obtain ⟨nodes, rfl, hnodes⟩ := fits_properties hg hr h
  obtain ⟨⟨name, c⟩, hc, rfl, hfits⟩ := Outcome.exists_result hnodes hp
  have hnames : Properties.names nodes = r.properties.map (·.name) :=
    Properties.names_eq_map (hnodes.imp fun p e he => he.1)
  refine ⟨c, (Node.property?_eq_some_iff rfl ?_).mpr hc, hfits⟩
  rw [hnames]
  exact hg.properties r hr

/-! ## Places of a shipment -/

theorem inlinedAt_from : shipments.InlinedAt shipment (.property .root "from") address := by
  have hfrom : ⟨"from", .record "Address", false, []⟩ ∈ shipment.properties := by
    simp [shipment]
  exact ⟨_, .property .root rfl hfrom, rfl⟩

theorem inlinedAt_via : shipments.InlinedAt shipment (.items (.property .root "via")) address := by
  have hvia : ⟨"via", .list (.record "Address"), true, []⟩ ∈ shipment.properties := by
    simp [shipment]
  exact ⟨_, .items (.property .root rfl hvia) rfl, rfl⟩

/-! ## Inlined nodes -/

/-- **Inlining does not depend on the surroundings.** The property of a record that is a record,
and the elements of one that is a list of records, have the very node that the inlined record
has alone. So one record has the same node at all places, at any depth, in one root or in
several. -/
theorem inlined_node_eq_build {g : Graph} (hg : g.check = .ok ()) (registry : Registry)
    {r : Record} (hr : r ∈ g.records) {n : Node} (h : g.build registry r = .ok n) :
    (∀ p ∈ r.properties, ∀ name, p.type = .record name → ∃ s m, g.record? name = some s ∧
      g.build registry s = .ok m ∧ n.property? p.name = some m) ∧
    (∀ p ∈ r.properties, ∀ name, p.type = .list (.record name) → ∃ s m c,
      g.record? name = some s ∧ g.build registry s = .ok m ∧ n.property? p.name = some c ∧
        c.items = some m) ∧
    ∀ r' ∈ g.records, ∀ n', g.build registry r' = .ok n' → ∀ place place' s,
      g.InlinedAt r place s → g.InlinedAt r' place' s → ∃ m, g.build registry s = .ok m ∧
        (∀ c, n.Holds place c ↔ c = m) ∧ ∀ c, n'.Holds place' c ↔ c = m := by
  have hwf := check_eq_ok_iff.mp hg
  refine ⟨fun p hp name htype => ?_, fun p hp name htype => ?_, ?_⟩
  · obtain ⟨c, hc, hfits⟩ := exists_property?_eq_some hwf hr h hp
    cases hfits with
    | record hs hbuild =>
      rw [Site.record?, htype] at hs
      exact ⟨_, c, hs, hbuild, hc⟩
    | enumeration htype' _ | list htype' _ | primitive htype' =>
      rw [htype] at htype'
      cases htype'
  · obtain ⟨c, hc, hfits⟩ := exists_property?_eq_some hwf hr h hp
    obtain ⟨m, hm, hfits⟩ := hfits.exists_items htype
    cases hfits with
    | record hs hbuild => exact ⟨_, m, c, hs, hbuild, hc, hm⟩
    | element _ htag => exact absurd rfl htag
  · intro r' hr' n' h' place place' s hplace hplace'
    obtain ⟨m, hm, hholds⟩ := holds_iff_of_inlinedAt hwf hr h hplace
    obtain ⟨m', hm', hholds'⟩ := holds_iff_of_inlinedAt hwf hr' h' hplace'
    rw [hm] at hm'
    cases hm'
    exact ⟨m, hm, hholds, hholds'⟩

/-- The sender of a shipment and the stations on its way have one node. -/
theorem inlined_node_eq_build_shipments :
    shipments.check = .ok () ∧ shipment ∈ shipments.records ∧
      ∃ n, shipments.build .empty shipment = .ok n ∧
        ∃ m, (∀ c, n.Holds (.property .root "from") c ↔ c = m) ∧
          ∀ c, n.Holds (.items (.property .root "via")) c ↔ c = m := by
  obtain ⟨n, hn⟩ := exists_build_shipment .empty
  obtain ⟨-, -, hsame⟩ := inlined_node_eq_build check_shipments .empty shipment_mem hn
  obtain ⟨m, -, hfrom, hvia⟩ :=
    hsame shipment shipment_mem n hn _ _ address inlinedAt_from inlinedAt_via
  exact ⟨check_shipments, shipment_mem, n, hn, m, hfrom, hvia⟩

end Graph

end CollectionSchema
