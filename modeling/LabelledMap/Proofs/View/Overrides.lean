import LabelledMap.Decimal.Double
import LabelledMap.Proofs.Json.Codecs
import LabelledMap.Scalar.Double
import LabelledMap.View.Options

/-!
# Documents as overrides

A document of map options says how they differ from the standard ones. A setting is an option of its
own, found at a path of keys, and it follows the document (`Setting.Follows`) if it has the value
that is written at its path, or its standard value where nothing is.

All settings follow every document that is accepted but one: label options within map options start
from the standard label options, whose offset is not that of the standard map options. So the offset
of labels follows just if the document does not mention labels, or else their offset
(`MapOptions.settings_follow_iff`). Whatever setting else a document leaves out may be written out
with its standard value, and the options stay the same.
-/

set_option autoImplicit false

namespace LabelledMap

open Json

variable {α : Type} [Scalar α]

/-! ### Settings -/

variable (α) in
/-- An option of a map, at its path in a document. -/
structure Setting where
  {τ : Type}
  path : List String
  codec : Codec τ
  get : MapOptions α → τ

/-- Whether a setting has the value that a document has at its path, or its standard value where the
document has none. -/
def Setting.Follows (setting : Setting α) (root : Node) (options : MapOptions α) : Prop :=
  match root.at? setting.path with
  | none => setting.get options = setting.get .standard
  | some node => setting.codec.read node = .ok (setting.get options)

/-- Whether a document mentions a path. -/
def Mentions (root : Node) (path : List String) : Prop := (root.at? path).isSome

instance (root : Node) (path : List String) : Decidable (Mentions root path) :=
  inferInstanceAs (Decidable ((root.at? path).isSome = true))

/-- Whether a value is an object. -/
def IsObject : Node → Prop
  | .object _ => True
  | _ => False

instance : DecidablePred IsObject
  | .object _ => .isTrue trivial
  | .null | .boolean _ | .number _ | .string _ | .array _ | .broken _ => .isFalse id

theorem IsObject.exists_eq {node : Node} (hobject : IsObject node) :
    ∃ members, node = .object members := by
  cases node with
  | object members => exact ⟨members, rfl⟩
  | null | boolean | number | string | array | broken => exact hobject.elim

theorem at?_singleton {members : Members} {name : String} :
    (Node.object members).at? [name] = members.find? name := by
  change (members.find? name).bind (Node.at? []) = _
  cases members.find? name <;> rfl

theorem at?_pair_of_found {members inner : Members} {outer name : String}
    (hfound : members.find? outer = some (.object inner)) :
    (Node.object members).at? [outer, name] = inner.find? name := by
  change (members.find? outer).bind (Node.at? [name]) = _
  rw [hfound]
  exact at?_singleton

theorem at?_pair_of_missing {members : Members} {outer name : String}
    (hmissing : members.find? outer = none) : (Node.object members).at? [outer, name] = none := by
  change (members.find? outer).bind (Node.at? [name]) = _
  rw [hmissing]
  rfl

theorem Setting.follows_iff_of_missing {root : Node} {options : MapOptions α}
    {setting : Setting α} (hmissing : root.at? setting.path = none) :
    setting.Follows root options ↔ setting.get options = setting.get .standard := by
  unfold Setting.Follows
  rw [hmissing]

theorem Setting.follows_iff_of_found {root : Node} {options : MapOptions α}
    {setting : Setting α} {node : Node} (hfound : root.at? setting.path = some node) :
    setting.Follows root options ↔ setting.codec.read node = .ok (setting.get options) := by
  unfold Setting.Follows
  rw [hfound]

variable [Legible α]

/-! ### The parts of options -/

variable (α)

/-- The displacement of labels among label options. -/
def offsetEntry : Entry (LabelOptions α) where
  name := "offset"
  codec := (offsetRecord α).codec α ⟨0, 0⟩
  get := (·.offset)
  set := fun offset options ↦ { options with offset }

/-- The parts of label options. -/
def labelEntries : List (Entry (LabelOptions α)) := [
  { name := "collision", codec := Codec.boolean α, get := (·.collision),
    set := fun collision options ↦ { options with collision } },
  { name := "text_border_weight", codec := Codec.float α, get := (·.textBorderWeight),
    set := fun textBorderWeight options ↦ { options with textBorderWeight } },
  { name := "text_border_color", codec := Codec.string α, get := (·.textBorderColor),
    set := fun textBorderColor options ↦ { options with textBorderColor } },
  { name := "text_weight", codec := Codec.float α, get := (·.textWeight),
    set := fun textWeight options ↦ { options with textWeight } },
  { name := "text_color", codec := Codec.string α, get := (·.textColor),
    set := fun textColor options ↦ { options with textColor } },
  { name := "font", codec := Codec.string α, get := (·.font),
    set := fun font options ↦ { options with font } },
  { name := "z_index", codec := Codec.int32 α, get := (·.zIndex),
    set := fun zIndex options ↦ { options with zIndex } },
  offsetEntry α,
  { name := "padding", codec := Codec.float α, get := (·.padding),
    set := fun padding options ↦ { options with padding } },
  { name := "click_tolerance", codec := Codec.float α, get := (·.clickTolerance),
    set := fun clickTolerance options ↦ { options with clickTolerance } }]

/-- The labels of a map among map options. -/
def labelsEntry : Entry (MapOptions α) where
  name := "labels"
  codec := labelOptionsCodec α
  get := (·.labels)
  set := fun labels options ↦ { options with labels }

/-- The parts of map options besides labels. -/
def viewEntries : List (Entry (MapOptions α)) := [
  { name := "center", codec := coordinateCodec α, get := (·.center),
    set := fun center options ↦ { options with center } },
  { name := "zoom", codec := Codec.float α, get := (·.zoom),
    set := fun zoom options ↦ { options with zoom } },
  { name := "max_bounds", codec := (areaRecord α).codec α ⟨⟨0, 0⟩, ⟨0, 0⟩⟩, get := (·.maxBounds),
    set := fun maxBounds options ↦ { options with maxBounds } },
  { name := "pointer_throttle_ms", codec := Codec.float α, get := (·.pointerInterval),
    set := fun pointerInterval options ↦ { options with pointerInterval } }]

theorem labelOptions_consists : (labelOptionsRecord α).Consists (labelEntries α) where
  fields := rfl
  names := by simp [labelEntries, offsetEntry]
  get_set := by simp [labelEntries, offsetEntry]
  set_get := by simp [labelEntries, offsetEntry]
  apart := by simp [labelEntries, offsetEntry]

theorem mapOptions_consists :
    (mapOptionsRecord α).Consists (viewEntries α ++ [labelsEntry α]) where
  fields := rfl
  names := by simp [viewEntries, labelsEntry]
  get_set := by simp [viewEntries, labelsEntry]
  set_get := by simp [viewEntries, labelsEntry]
  apart := by simp [viewEntries, labelsEntry]

variable {α}

/-- The setting of a part of map options. -/
def Setting.ofView (entry : Entry (MapOptions α)) : Setting α :=
  ⟨[entry.name], entry.codec, entry.get⟩

/-- The setting of a part of label options. -/
def Setting.ofLabels (entry : Entry (LabelOptions α)) : Setting α :=
  ⟨["labels", entry.name], entry.codec, fun options ↦ entry.get options.labels⟩

variable (α) in
/-- All settings of a map. -/
def MapOptions.settings : List (Setting α) :=
  (viewEntries α).map .ofView ++ (labelEntries α).map .ofLabels

example : (MapOptions.settings α).map (·.path) = [
    ["center"], ["zoom"], ["max_bounds"], ["pointer_throttle_ms"], ["labels", "collision"],
    ["labels", "text_border_weight"], ["labels", "text_border_color"], ["labels", "text_weight"],
    ["labels", "text_color"], ["labels", "font"], ["labels", "z_index"], ["labels", "offset"],
    ["labels", "padding"], ["labels", "click_tolerance"]] := rfl

/-! ### Settings that follow -/

variable {members : Members} {options : MapOptions α}

/-- The options besides labels follow a document. -/
theorem Setting.follows_view {entry : Entry (MapOptions α)} (hentry : entry ∈ viewEntries α)
    (hread : (mapOptionsCodec α).read (.object members) = .ok options) :
    (Setting.ofView entry).Follows (.object members) options := by
  have hentry : entry ∈ viewEntries α ++ [labelsEntry α] := List.mem_append_left _ hentry
  cases hmember : members.find? entry.name with
  | none =>
    refine (follows_iff_of_missing (at?_singleton.trans hmember)).mpr ?_
    exact (mapOptions_consists α).get_eq_of_missing hentry hmember hread
  | some node =>
    refine (follows_iff_of_found (at?_singleton.trans hmember)).mpr ?_
    exact (mapOptions_consists α).read_eq_of_found hentry hmember hread

theorem labelsEntry_mem : labelsEntry α ∈ viewEntries α ++ [labelsEntry α] :=
  List.mem_append_right _ (List.mem_singleton_self _)

/-- The labels of a standard map have the standard options besides their offset. -/
theorem get_standard_labels {entry : Entry (LabelOptions α)} (hentry : entry ∈ labelEntries α)
    (hother : entry.name ≠ "offset") :
    entry.get (MapOptions.standard : MapOptions α).labels = entry.get .standard :=
  (labelOptions_consists α).apart entry hentry (offsetEntry α) (by simp [labelEntries]) hother.symm
    ⟨10, 5⟩ .standard

/-- The options of labels follow a document that does not mention labels. -/
theorem Setting.follows_labels_of_missing {entry : Entry (LabelOptions α)}
    (hread : (mapOptionsCodec α).read (.object members) = .ok options)
    (hmissing : members.find? "labels" = none) :
    (Setting.ofLabels entry).Follows (.object members) options := by
  refine (follows_iff_of_missing (at?_pair_of_missing hmissing)).mpr (congrArg entry.get ?_)
  exact (mapOptions_consists α).get_eq_of_missing labelsEntry_mem hmissing hread

/-- The options of labels that a document mentions have the value that is written. -/
theorem Setting.follows_labels_of_found {entry : Entry (LabelOptions α)}
    (hentry : entry ∈ labelEntries α) {inner : Members}
    (hread : (mapOptionsCodec α).read (.object members) = .ok options)
    (hlabels : members.find? "labels" = some (.object inner)) {node : Node}
    (hfound : inner.find? entry.name = some node) :
    (Setting.ofLabels entry).Follows (.object members) options := by
  refine (follows_iff_of_found ((at?_pair_of_found hlabels).trans hfound)).mpr ?_
  exact (labelOptions_consists α).read_eq_of_found hentry hfound
    ((mapOptions_consists α).read_eq_of_found labelsEntry_mem hlabels hread)

/-- The options of labels that a document does not mention, though it mentions labels, are the
standard options of labels. -/
theorem get_labels_of_missing {entry : Entry (LabelOptions α)} (hentry : entry ∈ labelEntries α)
    {inner : Members} (hread : (mapOptionsCodec α).read (.object members) = .ok options)
    (hlabels : members.find? "labels" = some (.object inner))
    (hmissing : inner.find? entry.name = none) :
    entry.get options.labels = entry.get .standard :=
  (labelOptions_consists α).get_eq_of_missing hentry hmissing
    ((mapOptions_consists α).read_eq_of_found labelsEntry_mem hlabels hread)

/-- The options of labels besides their offset follow a document. -/
theorem Setting.follows_labels {entry : Entry (LabelOptions α)} (hentry : entry ∈ labelEntries α)
    (hother : entry.name ≠ "offset")
    (hread : (mapOptionsCodec α).read (.object members) = .ok options)
    (hobject : ∀ node ∈ members.find? "labels", IsObject node) :
    (Setting.ofLabels entry).Follows (.object members) options := by
  cases hlabels : members.find? "labels" with
  | none => exact follows_labels_of_missing hread hlabels
  | some node =>
    obtain ⟨inner, rfl⟩ := (hobject node hlabels).exists_eq
    cases hmember : inner.find? entry.name with
    | some node => exact follows_labels_of_found hentry hread hlabels hmember
    | none =>
      refine (follows_iff_of_missing ((at?_pair_of_found hlabels).trans hmember)).mpr ?_
      exact (get_labels_of_missing hentry hread hlabels hmember).trans
        (get_standard_labels hentry hother).symm

/-- The offset of labels follows a document just if that does not mention labels, or else mentions
their offset. Assumes: the standard maps have another offset than the standard labels. -/
theorem Setting.follows_offset_iff (hoffset : (⟨8, 5⟩ : Point α) ≠ ⟨10, 5⟩)
    (hread : (mapOptionsCodec α).read (.object members) = .ok options)
    (hobject : ∀ node ∈ members.find? "labels", IsObject node) :
    (Setting.ofLabels (offsetEntry α)).Follows (.object members) options ↔
      (Mentions (.object members) ["labels"] →
        Mentions (.object members) ["labels", "offset"]) := by
  have hentry : offsetEntry α ∈ labelEntries α := by simp [labelEntries]
  unfold Mentions
  rw [at?_singleton]
  cases hlabels : members.find? "labels" with
  | none =>
    exact iff_of_true (follows_labels_of_missing hread hlabels) fun hsome ↦ nomatch hsome
  | some node =>
    obtain ⟨inner, rfl⟩ := (hobject node hlabels).exists_eq
    rw [at?_pair_of_found hlabels]
    cases hmember : inner.find? "offset" with
    | some node =>
      exact iff_of_true (follows_labels_of_found hentry hread hlabels hmember) fun _ ↦ rfl
    | none =>
      refine iff_of_false (fun hfollows ↦ hoffset ?_) fun hmentions ↦ nomatch hmentions rfl
      have hstandard := (follows_iff_of_missing ((at?_pair_of_found hlabels).trans hmember)).mp
        hfollows
      exact (get_labels_of_missing hentry hread hlabels hmember).symm.trans hstandard

/-! ### Settings that are written out -/

/-- A setting that a document does not mention may be written out with its standard value. -/
theorem Setting.read_adds_view {entry : Entry (MapOptions α)} (hentry : entry ∈ viewEntries α)
    (hread : (mapOptionsCodec α).read (.object members) = .ok options) {added richer : Node}
    (hstandard : entry.codec.read added = .ok (entry.get .standard))
    (hadds : Node.Adds added [entry.name] (.object members) richer) :
    (mapOptionsCodec α).read richer = .ok options := by
  cases hadds with
  | member hmissing hadds =>
    exact (mapOptions_consists α).readMembers_adds (List.mem_append_left _ hentry) hmissing
      hstandard hadds hread
  | within hadds => exact nomatch hadds

theorem Setting.read_adds_labels {entry : Entry (LabelOptions α)}
    (hentry : entry ∈ labelEntries α) (hother : entry.name ≠ "offset")
    (hread : (mapOptionsCodec α).read (.object members) = .ok options) {added richer : Node}
    (hstandard : entry.codec.read added =
      .ok (entry.get (MapOptions.standard : MapOptions α).labels))
    (hadds : Node.Adds added ["labels", entry.name] (.object members) richer) :
    (mapOptionsCodec α).read richer = .ok options := by
  rw [get_standard_labels hentry hother] at hstandard
  cases hadds with
  | within hadds hchanges =>
    cases hadds with
    | within hadds => exact nomatch hadds
    | member hmissing hadds =>
      refine (mapOptions_consists α).readMembers_changes labelsEntry_mem (fun labels hlabels ↦ ?_)
        hchanges hread
      exact (labelOptions_consists α).readMembers_adds hentry hmissing hstandard hadds hlabels

/-! ### Documents -/

/-- Every setting but the offset of labels has the value that an accepted document writes for it, or
else its standard value, and writing out the standard value of one changes nothing. The offset
follows the document just if that does not mention labels, or else mentions their offset. Assumes:
the document is an object, and so are the labels in it. -/
theorem MapOptions.settings_follow_iff {text : String} {options : MapOptions Float}
    (haccepted : MapOptions.ofText text = .ok options)
    (hroot : IsObject (Document.ofString text).root)
    (hobject : ∀ node ∈ (Document.ofString text).root.at? ["labels"], IsObject node) :
    ∀ setting ∈ MapOptions.settings Float,
      (setting.Follows (Document.ofString text).root options ↔
        (setting.path = ["labels", "offset"] → Mentions (Document.ofString text).root ["labels"] →
          Mentions (Document.ofString text).root ["labels", "offset"])) ∧
      (setting.path ≠ ["labels", "offset"] → ∀ (added : Node) (richer : String),
        setting.codec.read added = .ok (setting.get .standard) →
        (Document.ofString richer).ended = true →
        Node.Adds added setting.path (Document.ofString text).root (Document.ofString richer).root →
          MapOptions.ofText richer = .ok options) := by
  obtain ⟨hread, hpassed⟩ := checked_eq_ok.mp haccepted
  obtain ⟨hread, -⟩ := Codec.ofText_eq_ok.mp hread
  obtain ⟨members, hmembers⟩ := hroot.exists_eq
  rw [hmembers, at?_singleton] at hobject
  rw [hmembers] at hread ⊢
  have haccepts : ∀ {richer : String}, (Document.ofString richer).ended = true →
      (mapOptionsCodec Float).read (Document.ofString richer).root = .ok options →
        MapOptions.ofText richer = .ok options :=
    fun hended hricher ↦ checked_eq_ok.mpr ⟨Codec.ofText_eq_ok.mpr ⟨hricher, hended⟩, hpassed⟩
  refine List.forall_mem_append.mpr ⟨List.forall_mem_map.mpr fun entry hentry ↦ ⟨?_, ?_⟩,
    List.forall_mem_map.mpr fun entry hentry ↦ ⟨?_, ?_⟩⟩
  · refine iff_of_true (Setting.follows_view hentry hread) fun hpath ↦ ?_
    exact absurd (congrArg List.length hpath) (show 1 ≠ 2 by decide)
  · exact fun _ added richer hstandard hended hadds ↦
      haccepts hended (Setting.read_adds_view hentry hread hstandard hadds)
  · by_cases hoffset : entry.name = "offset"
    · obtain rfl := List.inj_on_of_nodup_map (labelOptions_consists Float).names hentry
        (by simp [labelEntries] : offsetEntry Float ∈ labelEntries Float) hoffset
      have hdiffers : (8 : Float) ≠ 10 := by decide +kernel
      exact (Setting.follows_offset_iff (fun heq ↦ hdiffers (congrArg Point.x heq)) hread
        hobject).trans (imp_iff_right rfl).symm
    · refine iff_of_true (Setting.follows_labels hentry hoffset hread hobject) fun hpath ↦ ?_
      exact absurd (by simpa [Setting.ofLabels] using hpath) hoffset
  · intro hpath added richer hstandard hended hadds
    have hother : entry.name ≠ "offset" := fun hname ↦ hpath (by simp [Setting.ofLabels, hname])
    exact haccepts hended (Setting.read_adds_labels hentry hother hread hstandard hadds)

/-- Labels that are mentioned with nothing in them have another offset than labels that are not
mentioned. -/
theorem MapOptions.offset_of_empty_labels :
    ∃ options : MapOptions Float, MapOptions.ofText "\x7b\"labels\":\x7b\x7d\x7d" = .ok options ∧
      ¬Mentions (Document.ofString "\x7b\"labels\":\x7b\x7d\x7d").root ["labels", "offset"] ∧
      options.labels.offset = ⟨8, 5⟩ ∧
      options.labels.offset ≠ (MapOptions.standard : MapOptions Float).labels.offset := by
  have hread : (MapOptions.ofText (α := Float) "\x7b\"labels\":\x7b\x7d\x7d").toOption.map
      (·.labels.offset) = some ⟨8, 5⟩ := by
    decide +kernel
  obtain ⟨options, hoptions, hoffset⟩ := Option.map_eq_some_iff.mp hread
  refine ⟨options, toOption_eq_some.mp hoptions, by decide +kernel, hoffset, ?_⟩
  rw [hoffset]
  decide +kernel

/-- Members that mention the offset of labels. -/
def offsetMembers : Members :=
  .ofList [(.ofString "labels", .object (.ofList [(.ofString "offset",
    .array (.ofList [.number (.ofInt 0), .number (.ofInt 0)]))]))]

theorem written_offsetMembers : offsetMembers.Written := by
  have hnumbers : (Items.ofList [.number (.ofInt 0), .number (.ofInt 0)]).Written :=
    Items.written_ofList (by simpa [Node.Written] using Literal.written_ofInt 0)
  have hlabels : (Members.ofList [(.ofString "offset",
      .array (.ofList [.number (.ofInt 0), .number (.ofInt 0)]))]).Written :=
    Members.written_ofList (by simpa using ⟨Quote.plain_ofString _, hnumbers⟩)
  exact Members.written_ofList (by simpa using ⟨Quote.plain_ofString _, hlabels⟩)

/-- A document that mentions the offset of labels and nothing else. -/
def offsetText : String := "\x7b\"labels\":\x7b\"offset\":[0,0]\x7d\x7d"

/-- The same with the standard zoom level written out. -/
def offsetZoomText : String := "\x7b\"zoom\":7,\"labels\":\x7b\"offset\":[0,0]\x7d\x7d"

theorem ofString_offsetText :
    Document.ofString offsetText = ⟨.object offsetMembers, true⟩ := by
  have htext : offsetText = String.ofList (Node.object offsetMembers).chars := by decide +kernel
  rw [htext]
  exact Document.ofString_chars written_offsetMembers

theorem ofString_offsetZoomText :
    Document.ofString offsetZoomText =
      ⟨.object (.member (.ofString "zoom") (.number (.ofInt 7)) offsetMembers), true⟩ := by
  have htext : offsetZoomText = String.ofList (Node.object
      (.member (.ofString "zoom") (.number (.ofInt 7)) offsetMembers)).chars := by decide +kernel
  rw [htext]
  exact Document.ofString_chars
    ⟨Quote.plain_ofString _, Literal.written_ofInt 7, written_offsetMembers⟩

theorem MapOptions.settings_follow_iff_offset :
    ∃ options, MapOptions.ofText offsetText = .ok options ∧
      (∀ setting ∈ MapOptions.settings Float,
        setting.Follows (Document.ofString offsetText).root options) ∧
      MapOptions.ofText offsetZoomText = .ok options := by
  have hsome : (MapOptions.ofText (α := Float) offsetText).toOption.isSome = true := by
    decide +kernel
  obtain ⟨options, hoptions⟩ := Option.isSome_iff_exists.mp hsome
  have haccepted := toOption_eq_some.mp hoptions
  have hfollows := MapOptions.settings_follow_iff haccepted
  rw [ofString_offsetText] at hfollows ⊢
  have hfollows := hfollows trivial (by decide +kernel)
  refine ⟨options, haccepted, fun setting hsetting ↦ (hfollows setting hsetting).1.mpr ?_, ?_⟩
  · exact fun _ _ ↦ (by decide +kernel : Mentions (.object offsetMembers) ["labels", "offset"])
  · have hzoom := (hfollows ⟨["zoom"], Codec.float Float, (·.zoom)⟩
      (by simp [MapOptions.settings, viewEntries, Setting.ofView])).2
      (fun hpath ↦ absurd (congrArg List.length hpath) (show 1 ≠ 2 by decide))
    refine hzoom (.number (.ofInt 7)) _ (Codec.read_float_iff.mpr (by decide +kernel)) ?_ ?_
    · rw [ofString_offsetZoomText]
    · rw [ofString_offsetZoomText]
      exact .member (by decide +kernel) (.here (Quote.text_ofString _))

end LabelledMap
