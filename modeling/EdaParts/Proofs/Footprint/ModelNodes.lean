import EdaParts.Proofs.Footprint.Models
import EdaParts.Proofs.Json.Records
import EdaParts.Proofs.Record.Tokens

/-!
# Documents of model records

The document of a model record is the first field of its line. Where no tilde stands in it, it reaches the resolver as
it is written, whatever other members it has and whatever its strings say.

* `ModelNode.update` : what each attribute makes of its document; `ModelNode.node?` : all of them;
* `ModelNode.read_document` : the node that a document is read to;
* `Placement.modelNode_reaches_resolver` : what a line with a document asks the resolver for.
-/

namespace EdaParts

open Json

namespace ModelNode

/-! ## Attributes -/

/-- What an attribute makes of its document. -/
def update : String → Document → Option (ModelNode → ModelNode)
  | "uuid", d => d.string?.map fun identifier n => { n with identifier }
  | "c_origin", d => (d.optional? Document.string?).map fun origin n => { n with origin }
  | "z", d => (d.optional? (·.value? heightDepth)).map fun height n => { n with height }
  | "c_rotation", d => (d.optional? Document.string?).map fun rotation n => { n with rotation }
  | _, _ => none

/-- The node of the attributes: only the identifier must be there, and nothing may be there twice. -/
def node? (attrs : Members) : Option ModelNode := do
  let identifier ← attrs.only? "uuid" none Document.string?
  let origin ← attrs.only? "c_origin" (some none) (·.optional? Document.string?)
  let height ← attrs.only? "z" (some none) (·.optional? (·.value? heightDepth))
  let rotation ← attrs.only? "c_rotation" (some none) (·.optional? Document.string?)
  return { identifier, origin, height, rotation }

theorem changes_attributes (attrs : Members) :
    ∀ f ∈ attributes.fields, ∀ d ∈ attrs.named f.name, Layout.Changes update f d := by
  intro f hf d _
  simp only [attributes, List.mem_cons, List.not_mem_nil, or_false] at hf
  rcases hf with rfl | rfl | rfl | rfl
  · exact Layout.changes_of (takes_text d) rfl
  · exact Layout.changes_of (takes_optional d (takes_text d)) rfl
  · exact Layout.changes_of (takes_optional d (takes_value d heightDepth)) rfl
  · exact Layout.changes_of (takes_optional d (takes_text d)) rfl

/-- Each attribute changes a part of its own. -/
theorem update_cases {name : String} {d : Document} {g : ModelNode → ModelNode} (h : update name d = some g) :
    (name = "uuid" ∧ ∃ identifier, g = fun n => { n with identifier }) ∨
    (name = "c_origin" ∧ ∃ origin, g = fun n => { n with origin }) ∨
    (name = "z" ∧ ∃ height, g = fun n => { n with height }) ∨
    (name = "c_rotation" ∧ ∃ rotation, g = fun n => { n with rotation }) := by
  unfold update at h
  split at h
  · obtain ⟨x, -, rfl⟩ := Option.map_eq_some_iff.mp h
    exact .inl ⟨rfl, x, rfl⟩
  · obtain ⟨x, -, rfl⟩ := Option.map_eq_some_iff.mp h
    exact .inr (.inl ⟨rfl, x, rfl⟩)
  · obtain ⟨x, -, rfl⟩ := Option.map_eq_some_iff.mp h
    exact .inr (.inr (.inl ⟨rfl, x, rfl⟩))
  · obtain ⟨x, -, rfl⟩ := Option.map_eq_some_iff.mp h
    exact .inr (.inr (.inr ⟨rfl, x, rfl⟩))
  · cases h

theorem fills_identifier : Layout.Fills attributes update
    (.of "uuid" .always text fun n identifier => { n with identifier }) identifier
    (fun n identifier => { n with identifier }) Document.string? where
  mem := by simp [attributes]
  update_eq _ := rfl
  get_set _ _ := rfl
  apart := by
    intro other hother d g hg draft
    obtain ⟨rfl, -⟩ | ⟨-, x, rfl⟩ | ⟨-, x, rfl⟩ | ⟨-, x, rfl⟩ := update_cases hg
    · exact absurd rfl hother
    all_goals rfl

theorem fills_origin : Layout.Fills attributes update
    (.of "c_origin" .optional (optional text) fun n origin => { n with origin }) origin
    (fun n origin => { n with origin }) (·.optional? Document.string?) where
  mem := by simp [attributes]
  update_eq _ := rfl
  get_set _ _ := rfl
  apart := by
    intro other hother d g hg draft
    obtain ⟨-, x, rfl⟩ | ⟨rfl, -⟩ | ⟨-, x, rfl⟩ | ⟨-, x, rfl⟩ := update_cases hg
    · rfl
    · exact absurd rfl hother
    all_goals rfl

theorem fills_height : Layout.Fills attributes update
    (.of "z" .optional (optional (Json.value heightDepth)) fun n height => { n with height }) height
    (fun n height => { n with height }) (·.optional? (·.value? heightDepth)) where
  mem := by simp [attributes]
  update_eq _ := rfl
  get_set _ _ := rfl
  apart := by
    intro other hother d g hg draft
    obtain ⟨-, x, rfl⟩ | ⟨-, x, rfl⟩ | ⟨rfl, -⟩ | ⟨-, x, rfl⟩ := update_cases hg
    · rfl
    · rfl
    · exact absurd rfl hother
    · rfl

theorem fills_rotation : Layout.Fills attributes update
    (.of "c_rotation" .optional (optional text) fun n rotation => { n with rotation }) rotation
    (fun n rotation => { n with rotation }) (·.optional? Document.string?) where
  mem := by simp [attributes]
  update_eq _ := rfl
  get_set _ _ := rfl
  apart := by
    intro other hother d g hg draft
    obtain ⟨-, x, rfl⟩ | ⟨-, x, rfl⟩ | ⟨-, x, rfl⟩ | ⟨rfl, -⟩ := update_cases hg
    · rfl
    · rfl
    · rfl
    · exact absurd rfl hother

/-- **The attributes are read** to their node, if all names in them say something. -/
theorem fill_attributes_iff (attrs : Members) (node : ModelNode) :
    (∃ g, attributes.fill update [] attrs = some g ∧ g {} = node) ↔ attrs.Spelled ∧ node? attrs = some node := by
  have hget (g : ModelNode → ModelNode) (hg : attributes.fill update [] attrs = some g) :
      node? attrs = some (g {}) := by
    have hidentifier : attrs.only? "uuid" none Document.string? = some (g {}).identifier :=
      fills_identifier.only?_eq hg fun h => absurd rfl h
    have horigin : attrs.only? "c_origin" (some none) (·.optional? Document.string?) = some (g {}).origin :=
      fills_origin.only?_eq hg fun _ => rfl
    have hheight : attrs.only? "z" (some none) (·.optional? (·.value? heightDepth)) = some (g {}).height :=
      fills_height.only?_eq hg fun _ => rfl
    have hrotation : attrs.only? "c_rotation" (some none) (·.optional? Document.string?) = some (g {}).rotation :=
      fills_rotation.only?_eq hg fun _ => rfl
    rw [node?, hidentifier, horigin, hheight, hrotation]
    rfl
  constructor
  · rintro ⟨g, hg, rfl⟩
    exact ⟨((Layout.isSome_fill_iff attrs []).mp (Option.isSome_of_eq_some hg)).1, hget g hg⟩
  · rintro ⟨hspelled, hnode⟩
    have hsettled : ∀ f ∈ attributes.fields, Layout.Settled update [] f (attrs.named f.name) := by
      obtain ⟨identifier, hidentifier, hrest⟩ := Option.bind_eq_some_iff.mp hnode
      obtain ⟨origin, horigin, hrest⟩ := Option.bind_eq_some_iff.mp hrest
      obtain ⟨height, hheight, hrest⟩ := Option.bind_eq_some_iff.mp hrest
      obtain ⟨rotation, hrotation, -⟩ := Option.bind_eq_some_iff.mp hrest
      intro f hf
      simp only [attributes, List.mem_cons, List.not_mem_nil, or_false] at hf
      rcases hf with rfl | rfl | rfl | rfl
      · exact (fills_identifier.settled_iff (by simp [Field.of])).mpr (Option.isSome_of_eq_some hidentifier)
      · exact (fills_origin.settled_iff (by simp [Field.of])).mpr (Option.isSome_of_eq_some horigin)
      · exact (fills_height.settled_iff (by simp [Field.of])).mpr (Option.isSome_of_eq_some hheight)
      · exact (fills_rotation.settled_iff (by simp [Field.of])).mpr (Option.isSome_of_eq_some hrotation)
    obtain ⟨g, hg⟩ := Option.isSome_iff_exists.mp ((Layout.isSome_fill_iff attrs []).mpr ⟨hspelled, hsettled⟩)
    exact ⟨g, hg, Option.some.inj ((hget g hg).symm.trans hnode)⟩

/-! ## Documents -/

/-- What the attributes make of a node; no other member is looked at. -/
def updateNode : String → Document → Option (ModelNode → ModelNode)
  | "attrs", .object attrs => attributes.fill update [] attrs
  | _, _ => none

variable {members attrs : Members}

/-- The node of a model record changes whole, by its attributes. -/
theorem apart_attributes : Layout.Apart updateNode "attrs" id := by
  intro other hother d g hg
  unfold updateNode at hg
  split at hg
  · exact absurd rfl hother
  · cases hg

/-- The object of a model record is read to the node of its attributes. -/
theorem fill_layout_iff (hattrs : members.named "attrs" = [.object attrs]) (node : ModelNode) :
    (∃ g, layout.fill updateNode [] members = some g ∧ g {} = node) ↔
      members.Spelled ∧ attrs.Spelled ∧ node? attrs = some node := by
  have hsome : (layout.fill updateNode [] members).isSome ↔
      members.Spelled ∧ (attributes.fill update [] attrs).isSome := by
    rw [Layout.isSome_fill_iff]
    simp [layout, hattrs, Layout.Settled, updateNode]
  have hget {g k : ModelNode → ModelNode} (hg : layout.fill updateNode [] members = some g)
      (hk : attributes.fill update [] attrs = some k) : g {} = k {} := by
    have hset (h : ModelNode → ModelNode) (hh : updateNode "attrs" (.object attrs) = some h) (draft : ModelNode) :
        id (h draft) = k (id draft) :=
      congrFun (Option.some.inj (hh.symm.trans hk)) draft
    have hfield : (⟨"attrs", .always, attributes.read⟩ : Json.Field ModelNode) ∈ layout.fields := List.mem_cons_self
    exact Layout.get_of_fill hfield apart_attributes hset members hattrs hg {}
  rw [← fill_attributes_iff]
  constructor
  · rintro ⟨g, hg, rfl⟩
    obtain ⟨hspelled, hk⟩ := hsome.mp (Option.isSome_of_eq_some hg)
    obtain ⟨k, hk⟩ := Option.isSome_iff_exists.mp hk
    exact ⟨hspelled, k, hk, (hget hg hk).symm⟩
  · rintro ⟨hspelled, k, hk, rfl⟩
    obtain ⟨g, hg⟩ := Option.isSome_iff_exists.mp (hsome.mpr ⟨hspelled, Option.isSome_of_eq_some hk⟩)
    exact ⟨g, hg, hget hg hk⟩

/-- **The document of a model record is read** to the node of its attributes, blanks around it left out. -/
theorem read_document (hattrs : members.named "attrs" = [.object attrs]) (before after : Blanks) (node : ModelNode) :
    ModelNode.read (String.ofList (before.1 ++ ((Document.object members).text ++ after.1))) = .ok node ↔
      members.Spelled ∧ attrs.Spelled ∧ node? attrs = some node := by
  have hchanges : ∀ f ∈ layout.fields, ∀ d ∈ members.named f.name, Layout.Changes updateNode f d := by
    intro f hf d hd draft
    obtain rfl := List.mem_singleton.mp hf
    obtain rfl := List.mem_singleton.mp (hattrs ▸ hd)
    exact Layout.takes_object attrs draft (changes_attributes attrs)
  rw [← fill_layout_iff hattrs, ← toOption_eq_some_iff, ModelNode.read,
    (Layout.takes_object members {} hchanges).run before after, Option.map_eq_some_iff]

end ModelNode

/-! ## Lines -/

namespace Placement

open ModelNode (heightDepth)

variable {members attrs : Members} {identifier : String} {origin rotation : Option String}

/-- The record of a line with one field. -/
theorem ofLine?_modelText {document : List Char} (hne : document ≠ []) (hfree : Record.separator ∉ document) :
    Record.ofLine? ("SVGNODE~" ++ String.ofList document) = some ⟨"SVGNODE", [String.ofList document]⟩ := by
  have hline : "SVGNODE~" ++ String.ofList document = Record.toLine ⟨"SVGNODE", [String.ofList document]⟩ := by
    rw [← String.toList_inj, String.toList_append, Record.toLine, String.toList_ofList, String.toList_ofList]
    simp [Text.join, Record.separator]
  rw [hline, Record.ofLine?_toLine (by decide) ?_, List.filter_cons_of_pos (by simpa using hne), List.filter_nil]
  rw [List.forall_mem_cons, List.forall_mem_singleton]
  exact ⟨by decide, String.toList_ofList.symm ▸ hfree⟩

/-- A line with a document places what the resolver answers to it. -/
theorem read_modelText (c : FootprintContext) {document : List Char} (hne : document ≠ [])
    (hfree : Record.separator ∉ document) : read c ("SVGNODE~" ++ String.ofList document) =
      match ModelNode.read (String.ofList document) with
      | .error e => .error (.badDocument "SVGNODE" e)
      | .ok node => .ok ⟨[], [], c.resolver.bind fun resolve => resolve node.identifier (node.placement c.frame)⟩ := by
  rw [read_eq, ofLine?_modelText hne hfree]
  exact value_modelNode c ⟨"SVGNODE", [String.ofList document]⟩

theorem separator_not_mem_blanks (blanks : Blanks) : Record.separator ∉ blanks.1 := fun h =>
  absurd (blanks.2 _ h) (by decide)

/-- **A document without a tilde reaches the resolver**, whatever other members it has and whatever its strings say: if
the names in it say something and the height is no broken one, the resolver is asked for the identifier at the placement
of the attributes. Otherwise the record is skipped. -/
theorem modelNode_reaches_resolver (frame : Frame) (resolve : Resolver) (before after : Blanks)
    (hattrs : members.named "attrs" = [.object attrs])
    (hidentifier : attrs.only? "uuid" none Document.string? = some identifier)
    (horigin : attrs.only? "c_origin" (some none) (·.optional? Document.string?) = some origin)
    (hrotation : attrs.only? "c_rotation" (some none) (·.optional? Document.string?) = some rotation)
    (htilde : Record.separator ∉ (Document.object members).text) (p : Placement) :
    read ⟨frame, some resolve⟩ ("SVGNODE~" ++
        String.ofList (before.1 ++ ((Document.object members).text ++ after.1))) = .ok p ↔
      members.Spelled ∧ attrs.Spelled ∧
        ∃ height, attrs.only? "z" (some none) (·.optional? (·.value? heightDepth)) = some height ∧
          p = ⟨[], [], resolve identifier (ModelNode.placement ⟨identifier, origin, height, rotation⟩ frame)⟩ := by
  have hne : before.1 ++ ((Document.object members).text ++ after.1) ≠ [] := by
    simp [Document.text]
  have hfree : Record.separator ∉ before.1 ++ ((Document.object members).text ++ after.1) := by
    simp only [List.mem_append, not_or]
    exact ⟨separator_not_mem_blanks before, htilde, separator_not_mem_blanks after⟩
  rw [read_modelText _ hne hfree]
  have hread := ModelNode.read_document hattrs before after
  have hnode? : ModelNode.node? attrs =
      (attrs.only? "z" (some none) (·.optional? (·.value? heightDepth))).map (⟨identifier, origin, ·, rotation⟩) := by
    rw [ModelNode.node?, hidentifier, horigin, hrotation]
    cases attrs.only? "z" (some none) (·.optional? (·.value? heightDepth)) <;> rfl
  constructor
  · intro h
    split at h
    · cases h
    · next node hnode =>
      obtain ⟨hmembers, hattributes, hnode⟩ := (hread node).mp hnode
      obtain ⟨height, hheight, rfl⟩ := Option.map_eq_some_iff.mp (hnode?.symm.trans hnode)
      exact ⟨hmembers, hattributes, height, hheight, (Except.ok.inj h).symm⟩
  · rintro ⟨hmembers, hattributes, height, hheight, rfl⟩
    rw [hheight] at hnode?
    rw [(hread _).mpr ⟨hmembers, hattributes, hnode?⟩]
    rfl

/-- Characters of a string that are written as they are. -/
def plainMarks (s : String) : List Mark :=
  s.toList.filterMap fun c => if h : c ≠ '"' ∧ c ≠ '\\' ∧ 0x20 ≤ c.toNat then some (.plain c h) else none

/-- Members without blanks and escapes in their names. -/
def membersOf : List (String × Document) → Members
  | [] => .nil .none
  | (name, d) :: more => .cons .none (plainMarks name) .none .none d .none (membersOf more)

/-- The attributes of a model with a title, which nobody asks for. -/
def titledAttrs (title : List Mark) : Members :=
  membersOf [("title", .string title), ("uuid", .string (plainMarks "usb")), ("c_origin", .string (plainMarks "4,3"))]

def titled (title : List Mark) : Members :=
  membersOf [("gId", .null), ("attrs", .object (titledAttrs title))]

/-- A brace, an escaped quote and a comma. -/
def quoteTitle : List Mark :=
  plainMarks "\x7b" ++ [.short ⟨('"', '"'), by decide⟩] ++ plainMarks ","

theorem named_titled (title : List Mark) : (titled title).named "attrs" = [.object (titledAttrs title)] := rfl

theorem only?_titledAttrs (title : List Mark) :
    (titledAttrs title).only? "uuid" none Document.string? = some "usb" := rfl

theorem spelled_titled (title : List Mark) : (titled title).Spelled ∧ (titledAttrs title).Spelled :=
  ⟨⟨rfl, rfl, trivial⟩, rfl, rfl, rfl, trivial⟩

/-- The record of a model with a title. -/
def titledLine (title : String) : String :=
  "SVGNODE~\x7b\"gId\":null,\"attrs\":\x7b\"title\":\"" ++ title ++ "\",\"uuid\":\"usb\",\"c_origin\":\"4,3\"\x7d\x7d"

/-- A title with a brace, a quote and a comma in it does not keep its model from the resolver. -/
theorem modelNode_reaches_resolver_quote :
    read ⟨.board .zero, some Component.onlyUsb⟩ (titledLine "\x7b\\\",") = .ok ⟨[], [], some Component.usbModel⟩ := by
  have hread := modelNode_reaches_resolver (.board .zero) Component.onlyUsb .none .none (named_titled quoteTitle)
    (only?_titledAttrs quoteTitle) rfl rfl (by decide)
  refine (hread _).mpr ⟨(spelled_titled _).1, (spelled_titled _).2, none, rfl, ?_⟩
  rw [Component.onlyUsb, if_pos rfl]

/-- With a tilde in its title the same record is skipped, though nothing else is wrong with it. -/
theorem modelNode_misses_resolver_tilde :
    titledLine "a~b" = "SVGNODE~" ++ String.ofList (Document.object (titled (plainMarks "a~b"))).text ∧
      (titled (plainMarks "a~b")).named "attrs" = [.object (titledAttrs (plainMarks "a~b"))] ∧
      (titled (plainMarks "a~b")).Spelled ∧ (titledAttrs (plainMarks "a~b")).Spelled ∧
      (titledAttrs (plainMarks "a~b")).only? "uuid" none Document.string? = some "usb" ∧
      (read ⟨.board .zero, some Component.onlyUsb⟩ (titledLine "a~b")).isOk = false :=
  ⟨by decide +kernel, rfl, (spelled_titled _).1, (spelled_titled _).2, rfl, by decide +kernel⟩

end Placement

end EdaParts
