import LabelledMap.Decimal.Double
import LabelledMap.Proofs.Json.Codecs
import LabelledMap.Scalar.Double
import LabelledMap.View.Response

/-!
# Options and responses as documents

Label options, map options and responses are read as they are written (`documents_roundTrip`): the
text written for a response, or for options that pass their check, is read as that value again,
whether or not it has been read before. Identifiers, names, colours, icons and all that is not a
number hold whatever they may. A number has to be one that is read back from its own digits
(`ReadsBack`); whoever reads a number multiplies or divides its digits by a power of ten, which need
not give the nearest number. All numbers that are read are finite.
-/

set_option autoImplicit false

namespace LabelledMap

open Json

variable {α : Type} [Scalar α] [Legible α]

/-- Whether the text of a number is read as the number. -/
def ReadsBack (value : α) : Prop :=
  (Codec.float α).ofText ((Codec.float α).toText value) = .ok value

instance [DecidableEq α] (value : α) : Decidable (ReadsBack value) :=
  decidable_of_iff (((Codec.float α).ofText ((Codec.float α).toText value)).toOption = some value)
    toOption_eq_some

theorem ReadsBack.restores {value : α} (hback : ReadsBack value) :
    (Codec.float α).Restores value := Codec.restores_float_iff.mpr hback

/-! ### The numbers of a value -/

/-- The numbers among label options. -/
def LabelOptions.numbers (options : LabelOptions α) : List α :=
  [options.textBorderWeight, options.textWeight, options.offset.x, options.offset.y,
    options.padding, options.clickTolerance]

/-- The numbers among map options. -/
def MapOptions.numbers (options : MapOptions α) : List α :=
  [options.center.lat, options.center.lng, options.zoom, options.maxBounds.southWest.lat,
    options.maxBounds.southWest.lng, options.maxBounds.northEast.lat,
    options.maxBounds.northEast.lng, options.pointerInterval] ++ options.labels.numbers

/-- The numbers of a response: the coordinates of its places. -/
def Response.numbers (response : Response α) : List α :=
  response.places.flatMap fun place ↦ [place.location.lat, place.location.lng]

/-! ### What is written is read -/

open Record (Restored)

theorem nodup_labelOptionsRecord : ((labelOptionsRecord α).fields.map (·.name)).Nodup := by
  simp [labelOptionsRecord, Field.of]

theorem nodup_mapOptionsRecord : ((mapOptionsRecord α).fields.map (·.name)).Nodup := by
  simp [mapOptionsRecord, Field.of]

theorem restores_offset {offset : Point α} (hx : ReadsBack offset.x) (hy : ReadsBack offset.y) :
    ((offsetRecord α).codec α ⟨0, 0⟩).Restores offset :=
  Record.restores_codec (by simp [offsetRecord, Field.of])
    (.of hx.restores (.of hy.restores .nil))

theorem restores_coordinate {place : LatLng α} (hlat : ReadsBack place.lat)
    (hlng : ReadsBack place.lng) : (coordinateCodec α).Restores place :=
  Record.restores_codec (by simp [coordinateRecord, Field.of])
    (.of hlat.restores (.of hlng.restores .nil))

/-- Label options are read as they are written, if their numbers are. -/
theorem restores_labelOptions {options : LabelOptions α}
    (hback : ∀ value ∈ options.numbers, ReadsBack value) :
    (labelOptionsCodec α).Restores options := by
  simp only [LabelOptions.numbers, List.forall_mem_cons] at hback
  obtain ⟨hborder, hweight, hx, hy, hpadding, htolerance, -⟩ := hback
  exact Record.restores_codec nodup_labelOptionsRecord <|
    .of (Codec.restores_boolean _) <| .of hborder.restores <| .of (Codec.restores_string _) <|
    .of hweight.restores <| .of (Codec.restores_string _) <| .of (Codec.restores_string _) <|
    .of (Codec.restores_int32 _) <| .of (restores_offset hx hy) <| .of hpadding.restores <|
    .of htolerance.restores .nil

/-- Map options are read as they are written, if their numbers are. -/
theorem restores_mapOptions {options : MapOptions α}
    (hback : ∀ value ∈ options.numbers, ReadsBack value) :
    (mapOptionsCodec α).Restores options := by
  obtain ⟨hback, hlabels⟩ := List.forall_mem_append.mp hback
  simp only [List.forall_mem_cons] at hback
  obtain ⟨hlat, hlng, hzoom, hsouth, hwest, hnorth, heast, hinterval, -⟩ := hback
  have harea : ((areaRecord α).codec α ⟨⟨0, 0⟩, ⟨0, 0⟩⟩).Restores options.maxBounds :=
    Record.restores_codec (by simp [areaRecord, Field.of]) <|
      .of (restores_coordinate hsouth hwest) <| .of (restores_coordinate hnorth heast) .nil
  exact Record.restores_codec nodup_mapOptionsRecord <|
    .of (restores_coordinate hlat hlng) <| .of hzoom.restores <| .of harea <|
    .of hinterval.restores <| .of (restores_labelOptions hlabels) .nil

theorem restores_language (language : Language) : (languageCodec α).Restores language :=
  Record.restores_codec (by simp [languageRecord, Field.of]) <|
    .of (Codec.restores_uint64 _) <| .of (Codec.restores_string _) <|
    .of (Codec.restores_string _) .nil

theorem restores_placeName (placeName : PlaceName) : (placeNameCodec α).Restores placeName :=
  Record.restores_codec (by simp [placeNameRecord, Field.of]) <|
    .of (Codec.restores_string _) <| .of (restores_language _) .nil

/-- A number that can be read passes where it is kept. -/
theorem keep_of_read {node : Node} {value : α} (hread : (Codec.float α).read node = .ok value)
    (room : Nat) : node.keep α room = .ok () := by
  cases node with
  | number literal => exact congrArg (Except.map fun _ ↦ ()) hread
  | null | boolean | string | array | object | broken => exact nomatch hread

/-- A point is read from its two coordinates. -/
theorem readCoordinates_pair {lng lat : Node} {location : LatLng α}
    (hlng : (Codec.float α).read lng = .ok location.lng)
    (hlat : (Codec.float α).read lat = .ok location.lat) :
    readCoordinates α (.array (.ofList [lng, lat])) = .ok location := by
  simp only [Items.ofList, readCoordinates]
  rw [hlng, hlat]
  rfl

/-- A geometry with its kind in front is read from the coordinates after it, if these pass where
they are kept. -/
theorem readGeometry_of_coordinates {coordinates : Node} {location : LatLng α}
    (hkept : coordinates.keep α geometryRoom = .ok ())
    (hread : readCoordinates α coordinates = .ok location) :
    readGeometry α (.object (.ofList [(.ofString "type", .string (.ofString pointKind)),
      (.ofString "coordinates", coordinates)])) = .ok location := by
  have hkind : readKind α (.string (.ofString pointKind)) = .ok () := by
    simp only [readKind, Quote.text_ofString]
    rfl
  have hother : "coordinates" ≠ "type" := by decide
  simp only [readGeometry, Members.ofList, readGeometryMembers, Quote.text_ofString, hkind, hkept,
    Except.bind, if_pos, if_neg hother]
  change (readCoordinates α coordinates).bind (fun found ↦ findCoordinates α (some found) []) = _
  rw [hread]
  rfl

/-- A location is read as it is written, if its coordinates are. -/
theorem restores_geometry {location : LatLng α} (hlat : ReadsBack location.lat)
    (hlng : ReadsBack location.lng) : (geometryCodec α).Restores location := by
  have hlat := hlat.restores
  have hlng := hlng.restores
  have hwritten : (Items.ofList [(Codec.float α).write location.lng,
      (Codec.float α).write location.lat]).Written :=
    Items.written_ofList (by simpa using ⟨hlng.written, hlat.written⟩)
  have hkept : Node.keep α geometryRoom (.array (.ofList [(Codec.float α).write location.lng,
      (Codec.float α).write location.lat])) = .ok () := by
    have hroom : geometryRoom ≠ 0 := by decide
    simp only [Node.keep, if_neg hroom, Items.ofList, Items.keep]
    rw [keep_of_read hlng.read, keep_of_read hlat.read]
    rfl
  refine ⟨Members.written_ofList (List.forall_mem_cons.mpr ⟨?_, List.forall_mem_singleton.mpr ?_⟩),
    readGeometry_of_coordinates hkept (readCoordinates_pair hlng.read hlat.read)⟩
  · exact ⟨Quote.plain_ofString _, Quote.plain_ofString _⟩
  · exact ⟨Quote.plain_ofString _, hwritten⟩

/-- A place is read as it is written, if its coordinates are. -/
theorem restores_place {place : Place α} (hlat : ReadsBack place.location.lat)
    (hlng : ReadsBack place.location.lng) : (placeCodec α).Restores place := by
  have hicon : (Codec.optional (Codec.string α)).Restores place.icon :=
    Codec.restores_optional (fun name _ ↦ Codec.restores_string name)
      fun name _ ↦ Node.noConfusion
  have hproperties : ∀ start : Place α,
      Restored place (propertiesRecord α).fields start { place with location := start.location } :=
    fun start ↦ .of (Codec.restores_uint64 _) <|
      .of (Codec.restores_list fun name _ ↦ restores_placeName name) <| .of hicon <|
      .of (Codec.restores_string _) .nil
  have hnames : ((propertiesRecord α).fields.map (·.name)).Nodup := by
    simp [propertiesRecord, Field.of]
  exact Record.restores_codec (by simp [placeRecord, Field.of]) <|
    .of (restores_geometry hlat hlng) <|
    .cons (Record.written_write (hproperties place))
      (Record.readInto_write α hnames (hproperties { id := 0, location := place.location })) .nil

/-- A response is read as it is written, if the coordinates of its places are. -/
theorem restores_response {response : Response α}
    (hback : ∀ value ∈ response.numbers, ReadsBack value) :
    (responseCodec α).Restores response := by
  have hplaces : ∀ place ∈ response.places, (placeCodec α).Restores place := by
    intro place hplace
    have hnumbers : ∀ value ∈ [place.location.lat, place.location.lng], ReadsBack value :=
      fun value hvalue ↦ hback value (List.mem_flatMap.mpr ⟨place, hplace, hvalue⟩)
    exact restores_place (hnumbers _ (by simp)) (hnumbers _ (by simp))
  have hmetadata : ∀ start : Response α, Restored response (metadataRecord α).fields start
      { response with places := start.places } := fun start ↦
    .of (Codec.restores_dictionary fun entry _ ↦ Codec.restores_string entry.2) <|
      .of (Codec.restores_list fun language _ ↦ restores_language language) .nil
  have hnames : ((metadataRecord α).fields.map (·.name)).Nodup := by
    simp [metadataRecord, Field.of]
  exact Record.restores_codec (by simp [responseRecord, Field.of]) <|
    .of (Codec.restores_list hplaces) <|
    .cons (Record.written_write (hmetadata response))
      (Record.readInto_write α hnames (hmetadata { places := response.places })) .nil

/-! ### Numbers that are read -/

theorem gives_float : (Codec.float α).Gives fun value ↦ Scalar.isFinite value = true := by
  intro node value hread
  cases node with
  | number literal =>
    obtain ⟨size, -, hsome⟩ := Option.bind_eq_some_iff.mp (Codec.read_float_iff.mp hread)
    obtain ⟨hfinite, hsome⟩ := Option.ite_none_right_eq_some.mp hsome
    exact Option.some.inj hsome ▸ hfinite
  | null | boolean | string | array | object | broken => exact nomatch hread

theorem gives_offset : ((offsetRecord Float).codec Float ⟨0, 0⟩).Gives fun offset ↦
    offset.x.isFinite = true ∧ offset.y.isFinite = true := by
  refine Record.gives_codec (List.forall_mem_cons.mpr ⟨?_, List.forall_mem_singleton.mpr ?_⟩)
    (by decide +kernel)
  · exact Field.keeps_of gives_float fun x offset hx ⟨_, hy⟩ ↦ ⟨hx, hy⟩
  · exact Field.keeps_of gives_float fun y offset hy ⟨hx, _⟩ ↦ ⟨hx, hy⟩

theorem gives_coordinate : (coordinateCodec Float).Gives fun place ↦
    place.lat.isFinite = true ∧ place.lng.isFinite = true := by
  refine Record.gives_codec (List.forall_mem_cons.mpr ⟨?_, List.forall_mem_singleton.mpr ?_⟩)
    (by decide +kernel)
  · exact Field.keeps_of gives_float fun lat place hlat ⟨_, hlng⟩ ↦ ⟨hlat, hlng⟩
  · exact Field.keeps_of gives_float fun lng place hlng ⟨hlat, _⟩ ↦ ⟨hlat, hlng⟩

/-- Label options are read with finite numbers. -/
theorem gives_labelOptions : (labelOptionsCodec Float).Gives fun options ↦
    ∀ number ∈ options.numbers, number.isFinite = true := by
  refine Record.gives_codec ?_ (by decide +kernel)
  have hbystander : ∀ {τ : Type} {name : String} {codec : Codec τ} {get : LabelOptions Float → τ}
      {set : τ → LabelOptions Float → LabelOptions Float},
      (∀ inner options, (set inner options).numbers = options.numbers) →
      (Field.of name false codec get set).Keeps fun options ↦
        ∀ number ∈ options.numbers, number.isFinite = true :=
    fun hset ↦ Field.keeps_of_set fun inner options hnumbers ↦ (hset inner options).symm ▸ hnumbers
  simp only [labelOptionsRecord, List.forall_mem_cons]
  refine ⟨hbystander fun _ _ ↦ rfl, Field.keeps_of gives_float ?_, hbystander fun _ _ ↦ rfl,
    Field.keeps_of gives_float ?_, hbystander fun _ _ ↦ rfl, hbystander fun _ _ ↦ rfl,
    hbystander fun _ _ ↦ rfl, Field.keeps_of gives_offset ?_, Field.keeps_of gives_float ?_,
    Field.keeps_of gives_float ?_, List.forall_mem_nil _⟩
  all_goals
    simp only [LabelOptions.numbers, List.forall_mem_cons]
    rintro inner options hinner ⟨hborder, hweight, hx, hy, hpadding, htolerance, hnone⟩
  · exact ⟨hinner, hweight, hx, hy, hpadding, htolerance, hnone⟩
  · exact ⟨hborder, hinner, hx, hy, hpadding, htolerance, hnone⟩
  · exact ⟨hborder, hweight, hinner.1, hinner.2, hpadding, htolerance, hnone⟩
  · exact ⟨hborder, hweight, hx, hy, hinner, htolerance, hnone⟩
  · exact ⟨hborder, hweight, hx, hy, hpadding, hinner, hnone⟩

/-- Map options are read with finite numbers. -/
theorem gives_mapOptions : (mapOptionsCodec Float).Gives fun options ↦
    ∀ number ∈ options.numbers, number.isFinite = true := by
  have harea : ((areaRecord Float).codec Float ⟨⟨0, 0⟩, ⟨0, 0⟩⟩).Gives fun area ↦
      (area.southWest.lat.isFinite = true ∧ area.southWest.lng.isFinite = true) ∧
        area.northEast.lat.isFinite = true ∧ area.northEast.lng.isFinite = true := by
    refine Record.gives_codec (List.forall_mem_cons.mpr ⟨?_, List.forall_mem_singleton.mpr ?_⟩)
      (by decide +kernel)
    · exact Field.keeps_of gives_coordinate fun corner area hcorner ⟨_, hnorth⟩ ↦ ⟨hcorner, hnorth⟩
    · exact Field.keeps_of gives_coordinate fun corner area hcorner ⟨hsouth, _⟩ ↦ ⟨hsouth, hcorner⟩
  refine Record.gives_codec ?_ (by decide +kernel)
  simp only [mapOptionsRecord, List.forall_mem_cons]
  refine ⟨Field.keeps_of gives_coordinate ?_, Field.keeps_of gives_float ?_,
    Field.keeps_of harea ?_, Field.keeps_of gives_float ?_, Field.keeps_of gives_labelOptions ?_,
    List.forall_mem_nil _⟩
  all_goals
    simp only [MapOptions.numbers, List.forall_mem_append, List.forall_mem_cons]
    rintro inner options hinner
      ⟨⟨hlat, hlng, hzoom, hsouth, hwest, hnorth, heast, hinterval, hnone⟩, hlabels⟩
  · exact ⟨⟨hinner.1, hinner.2, hzoom, hsouth, hwest, hnorth, heast, hinterval, hnone⟩, hlabels⟩
  · exact ⟨⟨hlat, hlng, hinner, hsouth, hwest, hnorth, heast, hinterval, hnone⟩, hlabels⟩
  · exact ⟨⟨hlat, hlng, hzoom, hinner.1.1, hinner.1.2, hinner.2.1, hinner.2.2, hinterval, hnone⟩,
      hlabels⟩
  · exact ⟨⟨hlat, hlng, hzoom, hsouth, hwest, hnorth, heast, hinner, hnone⟩, hlabels⟩
  · exact ⟨⟨hlat, hlng, hzoom, hsouth, hwest, hnorth, heast, hinterval, hnone⟩, hinner⟩

theorem finite_of_readCoordinates {node : Node} {location : LatLng Float}
    (hread : readCoordinates Float node = .ok location) :
    location.lat.isFinite = true ∧ location.lng.isFinite = true := by
  unfold readCoordinates at hread
  split at hread
  · cases hread
  · next first rest =>
    obtain ⟨lng, hlng, hread⟩ := exists_of_bind_eq_ok hread
    split at hread
    · cases hread
    · obtain ⟨lat, hlat, hread⟩ := exists_of_bind_eq_ok hread
      split at hread
      · obtain rfl := Except.ok.inj hread
        exact ⟨gives_float hlat, gives_float hlng⟩
      · cases hread
  · cases hread

theorem finite_of_findCoordinates {kept : List (String × Node)} :
    ∀ {found : Option (LatLng Float)} {location : LatLng Float},
      (∀ place ∈ found, place.lat.isFinite = true ∧ place.lng.isFinite = true) →
      findCoordinates Float found kept = .ok location →
        location.lat.isFinite = true ∧ location.lng.isFinite = true := by
  induction kept with
  | nil =>
    intro found location hfound hread
    cases found with
    | none => exact nomatch hread
    | some place => exact Except.ok.inj hread ▸ hfound place rfl
  | cons member kept ih =>
    obtain ⟨name, node⟩ := member
    intro found location hfound hread
    unfold findCoordinates at hread
    split at hread
    · split at hread
      · exact nomatch hread
      · obtain ⟨place, hplace, hread⟩ := exists_of_bind_eq_ok hread
        refine ih (fun other hother ↦ ?_) hread
        exact Option.some.inj hother ▸ finite_of_readCoordinates hplace
    · exact ih hfound hread

/-- A location is read with finite coordinates. -/
theorem gives_geometry : (geometryCodec Float).Gives fun location ↦
    location.lat.isFinite = true ∧ location.lng.isFinite = true := by
  intro node location hread
  change readGeometry Float node = .ok location at hread
  unfold readGeometry at hread
  split at hread
  · obtain ⟨kept, -, hread⟩ := exists_of_bind_eq_ok hread
    exact finite_of_findCoordinates (fun _ hnone ↦ absurd hnone (Option.not_mem_none _)) hread
  · obtain ⟨-, -, hread⟩ := exists_of_bind_eq_ok hread
    exact nomatch hread
  · next first rest =>
    obtain ⟨-, -, hread⟩ := exists_of_bind_eq_ok hread
    obtain ⟨-, -, hread⟩ := exists_of_bind_eq_ok hread
    cases rest with
    | done stop => exact nomatch hread
    | item first rest =>
      obtain ⟨place, hplace, hread⟩ := exists_of_bind_eq_ok hread
      split at hread
      · exact Except.ok.inj hread ▸ finite_of_readCoordinates hplace
      · exact nomatch hread
  · exact nomatch hread

theorem gives_place : (placeCodec Float).Gives fun place ↦
    place.location.lat.isFinite = true ∧ place.location.lng.isFinite = true := by
  have hproperties : ∀ field ∈ (propertiesRecord Float).fields, field.Keeps fun place ↦
      place.location.lat.isFinite = true ∧ place.location.lng.isFinite = true := by
    simp only [propertiesRecord, List.forall_mem_cons]
    exact ⟨Field.keeps_of_set fun _ _ ↦ id, Field.keeps_of_set fun _ _ ↦ id,
      Field.keeps_of_set fun _ _ ↦ id, Field.keeps_of_set fun _ _ ↦ id, List.forall_mem_nil _⟩
  refine Record.gives_codec (List.forall_mem_cons.mpr ⟨?_, List.forall_mem_singleton.mpr ?_⟩)
    (by decide +kernel)
  · exact Field.keeps_of gives_geometry fun location place hlocation _ ↦ hlocation
  · exact fun node place next hnext ↦ Record.readInto_keeps hproperties hnext

/-- The places of a response are read with finite coordinates. -/
theorem gives_response : (responseCodec Float).Gives fun response ↦
    ∀ number ∈ response.numbers, number.isFinite = true := by
  have hmetadata : ∀ field ∈ (metadataRecord Float).fields, field.Keeps fun response ↦
      ∀ number ∈ response.numbers, number.isFinite = true := by
    simp only [metadataRecord, List.forall_mem_cons]
    exact ⟨Field.keeps_of_set fun _ _ ↦ id, Field.keeps_of_set fun _ _ ↦ id, List.forall_mem_nil _⟩
  refine Record.gives_codec (List.forall_mem_cons.mpr ⟨?_, List.forall_mem_singleton.mpr ?_⟩)
    (List.forall_mem_nil _)
  · refine Field.keeps_of (Codec.gives_list gives_place) fun places response hplaces _ ↦ ?_
    refine List.forall_mem_flatMap.mpr fun place hplace ↦ ?_
    simpa using hplaces place hplace
  · exact fun node response next hnext ↦ Record.readInto_keeps hmetadata hnext

/-! ### Values that are read and written -/

/-- The documents of values that may have to be valid. What is read from a text is valid and has
finite numbers only, and it is read again from the text that is written for it if its numbers are;
so is every valid value, whether it has been read or not. -/
structure RoundTrips {ε τ : Type} (ofText : String → Except ε τ) (toText : τ → String)
    (numbers : τ → List Float) (valid : τ → Prop) : Prop where
  read : ∀ text value, ofText text = .ok value →
    valid value ∧ (∀ number ∈ numbers value, number.isFinite = true) ∧
      ((∀ number ∈ numbers value, ReadsBack number) → ofText (toText value) = .ok value)
  written : ∀ value, valid value → (∀ number ∈ numbers value, ReadsBack number) →
    ofText (toText value) = .ok value

/-- The documents of a codec, of which those that are valid are accepted, are read as they are
written. -/
theorem RoundTrips.of_codec {ε τ : Type} {codec : Codec τ} {ofText : String → Except ε τ}
    {numbers : τ → List Float} {valid : τ → Prop}
    (haccepts : ∀ text value, ofText text = .ok value ↔ codec.ofText text = .ok value ∧ valid value)
    (hgives : codec.Gives fun value ↦ ∀ number ∈ numbers value, number.isFinite = true)
    (hrestores : ∀ value, (∀ number ∈ numbers value, ReadsBack number) → codec.Restores value) :
    RoundTrips ofText codec.toText numbers valid := by
  have hwritten (value : τ) (hvalid : valid value)
      (hback : ∀ number ∈ numbers value, ReadsBack number) :
      ofText (codec.toText value) = .ok value :=
    (haccepts _ _).mpr ⟨(hrestores value hback).ofText_toText, hvalid⟩
  refine ⟨fun text value haccepted ↦ ?_, hwritten⟩
  obtain ⟨hread, hvalid⟩ := (haccepts text value).mp haccepted
  exact ⟨hvalid, hgives (Codec.ofText_eq_ok.mp hread).1, hwritten value hvalid⟩

/-- Label options, map options and responses that are read from a text have finite numbers only, and
they are read again from the text that is written for them if their numbers are. So are all options
that pass their check, and all responses. -/
theorem documents_roundTrip :
    RoundTrips LabelOptions.ofText LabelOptions.toText LabelOptions.numbers
        (fun options ↦ options.validate = .ok ()) ∧
      RoundTrips MapOptions.ofText MapOptions.toText MapOptions.numbers
        (fun options ↦ options.validate = .ok ()) ∧
      RoundTrips Response.ofText Response.toText Response.numbers fun _ ↦ True :=
  ⟨.of_codec (fun _ _ ↦ checked_eq_ok) gives_labelOptions fun _ ↦ restores_labelOptions,
    .of_codec (fun _ _ ↦ checked_eq_ok) gives_mapOptions fun _ ↦ restores_mapOptions,
    .of_codec (fun _ _ ↦ (and_iff_left trivial).symm) gives_response fun _ ↦ restores_response⟩

/-- A document with one place, whose identifier is the greatest and whose name has characters that
are escaped. -/
def escapedDocument : String :=
  "\x7b\"features\":[\x7b\"geometry\":[\"Point\",[-0.5,1e-7]],\"properties\":" ++
    "\x7b\"id\":18446744073709551615,\"names\":[\x7b\"name\":\"\\u00e9\\\"\\\\\\n\"," ++
    "\"lang\":\x7b\"id\":0,\"name\":\"\",\"colour\":\"#fff\"\x7d\x7d]\x7d\x7d]," ++
    "\"metadata\":\x7b\"icons\":\x7b\"b\":\"2\"\x7d\x7d\x7d"

/-- The response of `escapedDocument`. -/
def escapedResponse : Response Float where
  places := [⟨18446744073709551615, ⟨1e-7, -0.5⟩, [⟨"é\"\\\n", 0, "", "#fff"⟩], none, "unknown"⟩]
  icons := .ofList [("b", "2")]

theorem documents_roundTrip_escaped :
    let bordered : LabelOptions Float := { LabelOptions.standard with textBorderWeight := 0.1 }
    let near : MapOptions Float := { MapOptions.standard with zoom := 6.5 }
    LabelOptions.ofText bordered.toText = .ok bordered ∧
      (MapOptions.ofText "\x7b\"zoom\":6.5\x7d" = .ok near ∧
        MapOptions.ofText near.toText = .ok near) ∧
      Response.ofText escapedDocument = .ok escapedResponse ∧
        Response.ofText escapedResponse.toText = .ok escapedResponse := by
  intro bordered near
  obtain ⟨hlabels, hoptions, hresponses⟩ := documents_roundTrip
  have hvalid : bordered.validate.toOption = some () := by decide +kernel
  have hnear : (MapOptions.ofText "\x7b\"zoom\":6.5\x7d").toOption = some near := by
    decide +kernel
  have hresponse : (Response.ofText escapedDocument).toOption = some escapedResponse := by
    decide +kernel
  rw [toOption_eq_some] at hvalid hnear hresponse
  exact ⟨hlabels.written bordered hvalid (by decide +kernel),
    ⟨hnear, (hoptions.read _ near hnear).2.2 (by decide +kernel)⟩,
    hresponse, (hresponses.read _ escapedResponse hresponse).2.2 (by decide +kernel)⟩

end LabelledMap
