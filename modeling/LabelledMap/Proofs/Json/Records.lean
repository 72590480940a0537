import LabelledMap.Json.Codec
import Mathlib.Data.List.Nodup

/-!
# Records that are read

A record is read by putting one field after the other into a value to start from, so a property of
that value which no field breaks is one of the record that is read (`Record.readInto_keeps`). In an
object only the fields that occur count (`Record.readMembers_keeps`), each of them just once
(`Record.readMembers_finds`), and one that occurs may as well be left out if it puts into the record
what is there anyway (`Record.readMembers_adds`).

`Node.at?` finds a value in a document by the keys on the way to it.
-/

set_option autoImplicit false

namespace LabelledMap.Json

variable {ρ τ : Type}

/-- What two steps come to is what the second makes of something that the first comes to. -/
theorem exists_of_bind_eq_ok {ε σ : Type} {first : Except ε σ} {next : σ → Except ε τ} {value : τ}
    (hvalue : first.bind next = .ok value) :
    ∃ inner, first = .ok inner ∧ next inner = .ok value := by
  cases first with
  | ok inner => exact ⟨inner, rfl, hvalue⟩
  | error fault => exact nomatch hvalue

theorem exists_of_map_eq_ok {ε σ : Type} {first : Except ε σ} {change : σ → τ} {value : τ}
    (hvalue : first.map change = .ok value) :
    ∃ inner, first = .ok inner ∧ change inner = value := by
  cases first with
  | ok inner => exact ⟨inner, rfl, Except.ok.inj hvalue⟩
  | error fault => exact nomatch hvalue

theorem toOption_eq_some {ε : Type} {result : Except ε τ} {value : τ} :
    result.toOption = some value ↔ result = .ok value := by
  cases result with
  | ok other =>
    exact ⟨fun hvalue ↦ congrArg Except.ok (Option.some.inj hvalue),
      fun hvalue ↦ congrArg some (Except.ok.inj hvalue)⟩
  | error fault => exact iff_of_false nofun nofun

/-- Options that are read and checked are those that are read, if they pass. -/
theorem checked_eq_ok {ε δ δ' τ : Type} {read : Except δ τ} {check : τ → Except δ' Unit}
    {onRead : δ → ε} {onCheck : δ' → ε} {value : τ} :
    (read.mapError onRead |>.bind fun options ↦
        (check options).mapError onCheck |>.map fun _ ↦ options) = .ok value ↔
      read = .ok value ∧ check value = .ok () := by
  constructor
  · intro hchecked
    obtain ⟨options, hoptions, hchecked⟩ := exists_of_bind_eq_ok hchecked
    obtain ⟨passed, hpassed, rfl⟩ := exists_of_map_eq_ok hchecked
    cases read with
    | error fault => exact nomatch hoptions
    | ok other =>
      obtain rfl := Except.ok.inj hoptions
      refine ⟨rfl, ?_⟩
      cases hcheck : check other with
      | ok passed => rfl
      | error fault =>
        rw [hcheck] at hpassed
        exact nomatch hpassed
  · rintro ⟨rfl, hpassed⟩
    simp only [Except.mapError, Except.bind, hpassed]
    rfl

/-- A text is read as what its document is read as, if nothing follows. -/
theorem Codec.ofText_eq_ok {codec : Codec τ} {text : String} {value : τ} :
    codec.ofText text = .ok value ↔ codec.read (Document.ofString text).root = .ok value ∧
      (Document.ofString text).ended = true := by
  constructor
  · intro hread
    obtain ⟨other, hother, hread⟩ := exists_of_bind_eq_ok hread
    split at hread
    · next hended => exact ⟨Except.ok.inj hread ▸ hother, hended⟩
    · exact nomatch hread
  · rintro ⟨hread, hended⟩
    simp only [ofText, readDocument, hread, Except.bind, hended, if_true]

/-! ### Values in a document -/

/-- The value of the first member with a key. -/
def Members.find? (name : String) : Members → Option Node
  | .done _ => none
  | .member key node rest =>
    if key.text.toOption = some name then some node else rest.find? name

theorem Members.find?_member_self {key : Quote} {name : String} (hname : key.text = .ok name)
    {node : Node} {rest : Members} : (Members.member key node rest).find? name = some node := by
  rw [Members.find?, hname]
  exact if_pos rfl

theorem Members.find?_member_of_ne {key : Quote} {name other : String}
    (hname : key.text = .ok other) (hne : other ≠ name) {node : Node} {rest : Members} :
    (Members.member key node rest).find? name = rest.find? name := by
  rw [Members.find?, hname]
  exact if_neg fun hsome ↦ hne (Option.some.inj hsome)

/-- A key that is not found is not that of a member, nor is it found further on. -/
theorem Members.find?_member_eq_none {key : Quote} {name other : String}
    (hname : key.text = .ok other) {node : Node} {rest : Members}
    (hmissing : (Members.member key node rest).find? name = none) :
    other ≠ name ∧ rest.find? name = none := by
  have hne : other ≠ name := by
    rintro rfl
    exact Option.some_ne_none node ((find?_member_self hname).symm.trans hmissing)
  exact ⟨hne, (find?_member_of_ne hname hne).symm.trans hmissing⟩

/-- The value that keys lead to, from an object to an object within it. -/
def Node.at? : List String → Node → Option Node
  | [], node => some node
  | name :: path, .object members => (members.find? name).bind (Node.at? path)
  | _ :: _, _ => none

/-! ### What reading keeps -/

/-- Whether all values that a codec reads have a property. -/
def Codec.Gives (codec : Codec τ) (property : τ → Prop) : Prop :=
  ∀ ⦃node : Node⦄ ⦃value : τ⦄, codec.read node = .ok value → property value

/-- Whether a record that a field is put into keeps a property. -/
def Field.Keeps (field : Field ρ) (property : ρ → Prop) : Prop :=
  ∀ ⦃node : Node⦄ ⦃value next : ρ⦄, field.read node value = .ok next → property value →
    property next

theorem Field.keeps_of {name : String} {required : Bool} {codec : Codec τ} {get : ρ → τ}
    {set : τ → ρ → ρ} {property : ρ → Prop} {given : τ → Prop} (hgives : codec.Gives given)
    (hset : ∀ inner value, given inner → property value → property (set inner value)) :
    (Field.of name required codec get set).Keeps property := by
  intro node value next hread hvalue
  obtain ⟨inner, hinner, rfl⟩ := exists_of_map_eq_ok hread
  exact hset inner value (hgives hinner) hvalue

/-- A field keeps a property that is none of its business. -/
theorem Field.keeps_of_set {name : String} {required : Bool} {codec : Codec τ} {get : ρ → τ}
    {set : τ → ρ → ρ} {property : ρ → Prop}
    (hset : ∀ inner value, property value → property (set inner value)) :
    (Field.of name required codec get set).Keeps property := by
  intro node value next hread hvalue
  obtain ⟨inner, -, rfl⟩ := exists_of_map_eq_ok hread
  exact hset inner value hvalue

namespace Codec

variable {codec : Codec τ} {given : τ → Prop}

theorem readItems_gives (hgives : codec.Gives given) :
    ∀ {items : Items} {values : List τ}, readItems codec.read items = .ok values →
      ∀ value ∈ values, given value
  | .done _, values, hread => by
    obtain ⟨-, -, rfl⟩ := exists_of_map_eq_ok hread
    exact fun value hvalue ↦ absurd hvalue List.not_mem_nil
  | .item first rest, values, hread => by
    obtain ⟨value, hvalue, hread⟩ := exists_of_bind_eq_ok hread
    obtain ⟨others, hothers, hread⟩ := exists_of_bind_eq_ok hread
    obtain rfl := Except.ok.inj hread
    exact List.forall_mem_cons.mpr ⟨hgives hvalue, readItems_gives hgives hothers⟩

/-- A list is read item by item. -/
theorem gives_list {α : Type} [Scalar α] [Legible α] (hgives : codec.Gives given) :
    (Codec.list α codec).Gives fun values ↦ ∀ value ∈ values, given value := by
  intro node values hread
  cases node with
  | array items => exact readItems_gives hgives hread
  | null | boolean | number | string | object | broken => exact nomatch hread

end Codec

namespace Record

variable {record : Record ρ} {property : ρ → Prop}

theorem readItems_keeps {fields : List (Field ρ)}
    (hkeeps : ∀ field ∈ fields, field.Keeps property) :
    ∀ {index : Nat} {items : Items} {value final : ρ},
      record.readItems fields index items value = .ok final → property value → property final := by
  induction fields with
  | nil =>
    intro index items value final hread hvalue
    cases items with
    | done stop =>
      obtain ⟨-, -, rfl⟩ := exists_of_map_eq_ok hread
      exact hvalue
    | item first rest => exact nomatch hread
  | cons field fields ih =>
    intro index items value final hread hvalue
    obtain ⟨hfield, hfields⟩ := List.forall_mem_cons.mp hkeeps
    match items with
    | .item first rest =>
      obtain ⟨next, hnext, hread⟩ := exists_of_bind_eq_ok hread
      exact ih hfields hread (hfield hnext hvalue)
    | .done (some reason) => exact nomatch hread
    | .done none =>
      rw [readItems] at hread
      split at hread
      · exact nomatch hread
      · exact ih hfields hread hvalue

/-- A field of a record is found by its name. -/
theorem find?_name (hnames : (record.fields.map (·.name)).Nodup) {field : Field ρ}
    (hfield : field ∈ record.fields) :
    record.fields.find? (·.name == field.name) = some field := by
  obtain ⟨before, after, hfields⟩ := List.append_of_mem hfield
  refine List.find?_eq_some_iff_append.mpr ⟨beq_self_eq_true _, before, after, hfields, ?_⟩
  rw [hfields, List.map_append] at hnames
  intro other hother
  have hne : other.name ≠ field.name := (List.nodup_append.mp hnames).2.2 other.name
    (List.mem_map_of_mem hother) field.name List.mem_cons_self
  simpa using hne

/-- A member that a field is read from for the first time. Assumes: no two fields have the same
name. -/
theorem readMembers_known (hnames : (record.fields.map (·.name)).Nodup) {field : Field ρ}
    (hfield : field ∈ record.fields) {key : Quote} (hname : key.text = .ok field.name) {node : Node}
    {value next : ρ} (hnext : field.read node value = .ok next) {seen : List String}
    (hunseen : field.name ∉ seen) (rest : Members) :
    record.readMembers (.member key node rest) seen value =
      record.readMembers rest (field.name :: seen) next := by
  have hunseen : seen.contains field.name = false := by simpa using hunseen
  simp only [readMembers, hname, find?_name hnames hfield, hnext, hunseen, Except.bind]
  rfl

/-- A member that is read is either passed over or put into the record, by a field that has not been
read before. -/
theorem readMembers_member {key : Quote} {node : Node} {rest : Members} {seen : List String}
    {value final : ρ} (hread : record.readMembers (.member key node rest) seen value = .ok final) :
    ∃ name, key.text = .ok name ∧
      ((∀ field ∈ record.fields, field.name ≠ name) ∧
          (∀ others seen, record.readMembers (.member key node others) seen value =
            record.readMembers others seen value) ∨
        ∃ field ∈ record.fields, field.name = name ∧ name ∉ seen ∧
          ∃ next, field.read node value = .ok next ∧ ∀ others seen, name ∉ seen →
            record.readMembers (.member key node others) seen value =
              record.readMembers others (name :: seen) next) := by
  obtain ⟨name, hname, hread⟩ := exists_of_bind_eq_ok hread
  refine ⟨name, hname, ?_⟩
  split at hread
  · next hunknown =>
    obtain ⟨hskipped, hskip, -⟩ := exists_of_bind_eq_ok hread
    refine Or.inl ⟨fun field hfield ↦ ?_, fun others seen ↦ ?_⟩
    · simpa using List.find?_eq_none.mp hunknown field hfield
    · simp only [readMembers, hname, hunknown, hskip, Except.bind]
  · next field hfound =>
    split at hread
    · exact nomatch hread
    · next hunseen =>
      obtain ⟨next, hnext, -⟩ := exists_of_bind_eq_ok hread
      refine Or.inr ⟨field, List.mem_of_find?_eq_some hfound, ?_, ?_, next, hnext,
        fun others seen hunseen ↦ ?_⟩
      · simpa using List.find?_some hfound
      · simpa using hunseen
      · have hunseen : seen.contains name = false := by simpa using hunseen
        simp only [readMembers, hname, hfound, hnext, hunseen, Except.bind]
        rfl

/-- An object that is read without members is complete. -/
theorem readMembers_done {stop : Option Break} {seen : List String} {value final : ρ}
    (hread : record.readMembers (.done stop) seen value = .ok final) :
    stop = none ∧ final = value ∧
      ∀ field ∈ record.fields, field.required = true → field.name ∈ seen := by
  cases stop with
  | some reason => exact nomatch hread
  | none =>
    rw [readMembers] at hread
    split at hread
    · exact nomatch hread
    · next hfound =>
      refine ⟨rfl, (Except.ok.inj hread).symm, fun field hfield hrequired ↦ ?_⟩
      simpa [hrequired] using List.find?_eq_none.mp hfound field hfield

/-- A property is kept by an object if those fields keep it that occur and have not been read
before. -/
theorem readMembers_keeps (property : ρ → Prop) :
    ∀ {members : Members} {seen : List String}, (∀ field ∈ record.fields, field.name ∉ seen →
      members.find? field.name ≠ none → field.Keeps property) →
      ∀ {value final : ρ}, record.readMembers members seen value = .ok final →
        property value → property final
  | .done stop, seen, _, value, final, hread, hvalue => by
    obtain ⟨-, rfl, -⟩ := readMembers_done hread
    exact hvalue
  | .member key node rest, seen, hkeeps, value, final, hread, hvalue => by
    have hlater : ∀ field ∈ record.fields, field.name ∉ seen → rest.find? field.name ≠ none →
        field.Keeps property := by
      intro field hfield hunseen hrest
      refine hkeeps field hfield hunseen ?_
      rw [Members.find?]
      split
      · exact Option.some_ne_none node
      · exact hrest
    obtain ⟨name, hname, ⟨-, hstep⟩ | ⟨field, hfield, rfl, hunseen, next, hnext, hstep⟩⟩ :=
      readMembers_member hread
    · exact readMembers_keeps property hlater ((hstep rest seen).symm.trans hread) hvalue
    · -- The field has now been read and will not be again, so it need not keep the property later.
      refine readMembers_keeps property (fun other hother hunseen ↦ hlater other hother fun hseen ↦
        hunseen (List.mem_cons_of_mem _ hseen)) ((hstep rest seen hunseen).symm.trans hread) ?_
      refine hkeeps field hfield hunseen ?_ hnext hvalue
      rw [Members.find?_member_self hname]
      exact Option.some_ne_none node

/-- A property that every field keeps is one of the record if the value to start from has it. -/
theorem readInto_keeps {α : Type} [Scalar α] [Legible α]
    (hkeeps : ∀ field ∈ record.fields, field.Keeps property) {start final : ρ} {node : Node}
    (hread : record.readInto α start node = .ok final) (hstart : property start) :
    property final := by
  cases node with
  | array items => exact readItems_keeps hkeeps hread hstart
  | object members =>
    exact readMembers_keeps property (fun field hfield _ _ ↦ hkeeps field hfield) hread hstart
  | null | boolean | number | string | broken => exact nomatch hread

theorem gives_codec {α : Type} [Scalar α] [Legible α]
    (hkeeps : ∀ field ∈ record.fields, field.Keeps property) {start : ρ}
    (hstart : property start) : (record.codec α start).Gives property :=
  fun _ _ hread ↦ readInto_keeps hkeeps hread hstart

/-- A member that occurs is put into the record once, so a property that it gives and that the other
fields keep is one of the record. Assumes: no two fields have the same name. -/
theorem readMembers_finds (property : ρ → Prop) (hnames : (record.fields.map (·.name)).Nodup)
    {field : Field ρ} (hfield : field ∈ record.fields) {node : Node}
    (hothers : ∀ other ∈ record.fields, other.name ≠ field.name → other.Keeps property)
    (hown : ∀ ⦃value next : ρ⦄, field.read node value = .ok next → property next) :
    ∀ {members : Members} {seen : List String}, members.find? field.name = some node →
      ∀ {value final : ρ}, record.readMembers members seen value = .ok final → property final
  | .done _, _, hfound, _, _, _ => nomatch hfound
  | .member key first rest, seen, hfound, value, final, hread => by
    obtain ⟨name, hname, hcases⟩ := readMembers_member hread
    by_cases hsame : name = field.name
    · obtain rfl := Option.some.inj
        ((Members.find?_member_self (hsame ▸ hname)).symm.trans hfound)
      obtain ⟨hunknown, -⟩ | ⟨known, hknown, hknownName, hunseen, next, hnext, hstep⟩ := hcases
      · exact absurd hsame.symm (hunknown field hfield)
      · obtain rfl := List.inj_on_of_nodup_map hnames hknown hfield (hknownName.trans hsame)
        -- Behind the member only the other fields can be read, since this one has been.
        refine readMembers_keeps property (fun other hother hunseen _ ↦ hothers other hother ?_)
          ((hstep rest seen hunseen).symm.trans hread) (hown hnext)
        exact fun hother ↦ hunseen (hother.trans hknownName ▸ List.mem_cons_self)
    · rw [Members.find?_member_of_ne hname hsame] at hfound
      obtain ⟨-, hstep⟩ | ⟨known, -, -, hunseen, next, -, hstep⟩ := hcases
      · exact readMembers_finds property hnames hfield hothers hown hfound
          ((hstep rest seen).symm.trans hread)
      · exact readMembers_finds property hnames hfield hothers hown hfound
          ((hstep rest seen hunseen).symm.trans hread)

end Record

/-! ### Documents that say more -/

/-- Members with one more among them. -/
inductive Members.Adds (name : String) (added : Node) : Members → Members → Prop
  | here {key : Quote} {rest : Members} (hname : key.text = .ok name) :
    Adds name added rest (.member key added rest)
  | later {key : Quote} {node : Node} {rest richer : Members}
    (hadds : Adds name added rest richer) :
    Adds name added (.member key node rest) (.member key node richer)

/-- Members of which one has another value. -/
inductive Members.Changes (name : String) (node changed : Node) : Members → Members → Prop
  | here {key : Quote} {rest : Members} (hname : key.text = .ok name) :
    Changes name node changed (.member key node rest) (.member key changed rest)
  | later {key : Quote} {other : Node} {rest richer : Members}
    (hchanges : Changes name node changed rest richer) :
    Changes name node changed (.member key other rest) (.member key other richer)

/-- A value with one more member, in the object that the keys in front of its own lead to and that
has had no member with its key. -/
inductive Node.Adds (added : Node) : List String → Node → Node → Prop
  | member {name : String} {members richer : Members} (hmissing : members.find? name = none)
    (hadds : members.Adds name added richer) :
    Adds added [name] (.object members) (.object richer)
  | within {name : String} {path : List String} {node changed : Node} {members richer : Members}
    (hadds : Adds added path node changed) (hchanges : members.Changes name node changed richer) :
    Adds added (name :: path) (.object members) (.object richer)

namespace Record

variable {record : Record ρ} {property : ρ → Prop}

/-- Whether an optional field has been read makes no difference to members without it. -/
theorem readMembers_seen {name : String}
    (hoptional : ∀ field ∈ record.fields, field.name = name → field.required = false) :
    ∀ {members : Members} {seen more : List String}, members.find? name = none →
      (∀ other, other ≠ name → (other ∈ more ↔ other ∈ seen)) →
      ∀ {value final : ρ}, record.readMembers members seen value = .ok final →
        record.readMembers members more value = .ok final
  | .done stop, seen, more, _, hmore, value, final, hread => by
    obtain ⟨rfl, rfl, hrequired⟩ := readMembers_done hread
    have hfound : record.fields.find? (fun field ↦ field.required && !more.contains field.name) =
        none := by
      refine List.find?_eq_none.mpr fun field hfield hmissing ↦ ?_
      obtain ⟨hneeded, hunseen⟩ : field.required = true ∧ field.name ∉ more := by
        simpa using hmissing
      have hne : field.name ≠ name := fun hname ↦
        Bool.false_ne_true ((hoptional field hfield hname).symm.trans hneeded)
      exact hunseen ((hmore _ hne).mpr (hrequired field hfield hneeded))
    rw [readMembers, hfound]
  | .member key node rest, seen, more, hfresh, hmore, value, final, hread => by
    obtain ⟨other, hother, hcases⟩ := readMembers_member hread
    obtain ⟨hne, hfresh⟩ := Members.find?_member_eq_none hother hfresh
    obtain ⟨-, hstep⟩ | ⟨field, -, -, hunseen, next, -, hstep⟩ := hcases
    · rw [hstep] at hread ⊢
      exact readMembers_seen hoptional hfresh hmore hread
    · rw [hstep _ _ hunseen] at hread
      rw [hstep _ _ fun hseen ↦ hunseen ((hmore other hne).mp hseen)]
      refine readMembers_seen hoptional hfresh (fun name hname ↦ ?_) hread
      rw [List.mem_cons, List.mem_cons, hmore name hname]

/-- An optional member may be added that puts into the record what is there anyway. Assumes: no two
fields have the same name. -/
theorem readMembers_adds (property : ρ → Prop) (hnames : (record.fields.map (·.name)).Nodup)
    {field : Field ρ} (hfield : field ∈ record.fields) (hoptional : field.required = false)
    {added : Node}
    (hothers : ∀ other ∈ record.fields, other.name ≠ field.name → other.Keeps property)
    (hsame : ∀ value, property value → field.read added value = .ok value)
    {members richer : Members} (hadds : members.Adds field.name added richer) :
    ∀ {seen : List String}, field.name ∉ seen → members.find? field.name = none →
      ∀ {value final : ρ}, record.readMembers members seen value = .ok final → property value →
        record.readMembers richer seen value = .ok final := by
  -- Up to the added member the other fields keep the property, by which it changes nothing; behind
  -- it there is only one more name among those that have been read.
  induction hadds with
  | @here key rest hname =>
    intro seen hunseen hfresh value final hread hvalue
    rw [readMembers_known hnames hfield hname (hsame value hvalue) hunseen]
    refine readMembers_seen (fun other hother hsame ↦ ?_) hfresh (fun other hother ↦ ?_) hread
    · exact List.inj_on_of_nodup_map hnames hother hfield hsame ▸ hoptional
    · exact List.mem_cons.trans (or_iff_right hother)
  | @later key node rest richer hadds ih =>
    intro seen hunseen hfresh value final hread hvalue
    obtain ⟨other, hother, hcases⟩ := readMembers_member hread
    obtain ⟨hne, hfresh⟩ := Members.find?_member_eq_none hother hfresh
    obtain ⟨-, hstep⟩ | ⟨known, hknown, hknownName, hnew, next, hnext, hstep⟩ := hcases
    · rw [hstep] at hread ⊢
      exact ih hunseen hfresh hread hvalue
    · rw [hstep _ _ hnew] at hread ⊢
      refine ih (fun hseen ↦ ?_) hfresh hread (hothers known hknown (hknownName ▸ hne) hnext hvalue)
      exact (List.mem_cons.mp hseen).elim (fun heq ↦ hne heq.symm) hunseen

/-- A member may change to one that puts the same into the record. Assumes: no two fields have the
same name. -/
theorem readMembers_changes (hnames : (record.fields.map (·.name)).Nodup) {field : Field ρ}
    (hfield : field ∈ record.fields) {node changed : Node}
    (hsame : ∀ ⦃value next : ρ⦄, field.read node value = .ok next →
      field.read changed value = .ok next)
    {members richer : Members} (hchanges : members.Changes field.name node changed richer) :
    ∀ {seen : List String} {value final : ρ}, record.readMembers members seen value = .ok final →
      record.readMembers richer seen value = .ok final := by
  induction hchanges with
  | @here key rest hname =>
    intro seen value final hread
    obtain ⟨name, hother, hcases⟩ := readMembers_member hread
    obtain rfl := Except.ok.inj (hname.symm.trans hother)
    obtain ⟨hunknown, -⟩ | ⟨known, hknown, hknownName, hunseen, next, hnext, hstep⟩ := hcases
    · exact absurd rfl (hunknown field hfield)
    · obtain rfl := List.inj_on_of_nodup_map hnames hknown hfield hknownName
      rw [readMembers_known hnames hknown hname (hsame hnext) hunseen]
      exact (hstep rest seen hunseen).symm.trans hread
  | @later key other rest richer hchanges ih =>
    intro seen value final hread
    obtain ⟨name, -, ⟨-, hstep⟩ | ⟨known, -, -, hunseen, next, -, hstep⟩⟩ :=
      readMembers_member hread
    · rw [hstep] at hread ⊢
      exact ih hread
    · rw [hstep _ _ hunseen] at hread ⊢
      exact ih hread

end Record

/-! ### Records of parts that may be missing -/

/-- A part of a record, with the name and the codec of its field. -/
structure Entry (ρ : Type) where
  {τ : Type}
  name : String
  codec : Codec τ
  get : ρ → τ
  set : τ → ρ → ρ

/-- The field of a part; it may be missing. -/
def Entry.field (entry : Entry ρ) : Field ρ :=
  .of entry.name false entry.codec entry.get entry.set

/-- Whether a record consists of parts that have names of their own and do not disturb each
other. -/
structure Record.Consists (record : Record ρ) (entries : List (Entry ρ)) : Prop where
  fields : record.fields = entries.map Entry.field
  names : (entries.map (·.name)).Nodup
  get_set : ∀ entry ∈ entries, ∀ inner value, entry.get (entry.set inner value) = inner
  set_get : ∀ entry ∈ entries, ∀ value, entry.set (entry.get value) value = value
  apart : ∀ entry ∈ entries, ∀ other ∈ entries, other.name ≠ entry.name →
    ∀ inner value, entry.get (other.set inner value) = entry.get value

namespace Record.Consists

variable {record : Record ρ} {entries : List (Entry ρ)} {entry : Entry ρ} {members : Members}
  {start final : ρ}

theorem nodup (hconsists : record.Consists entries) : (record.fields.map (·.name)).Nodup := by
  rw [hconsists.fields, List.map_map]
  exact hconsists.names

theorem field_mem (hconsists : record.Consists entries) (hentry : entry ∈ entries) :
    entry.field ∈ record.fields :=
  hconsists.fields ▸ List.mem_map_of_mem hentry

theorem keeps (hconsists : record.Consists entries) (hentry : entry ∈ entries)
    (property : entry.τ → Prop) :
    ∀ field ∈ record.fields, field.name ≠ entry.name →
      field.Keeps fun value ↦ property (entry.get value) := by
  rw [hconsists.fields]
  refine List.forall_mem_map.mpr fun other hother hne ↦ ?_
  refine Field.keeps_of_set fun inner value hvalue ↦ ?_
  exact (hconsists.apart entry hentry other hother hne inner value).symm ▸ hvalue

/-- A part that an object does not mention stays as it is at the start. -/
theorem get_eq_of_missing (hconsists : record.Consists entries) (hentry : entry ∈ entries)
    (hmissing : members.find? entry.name = none)
    (hread : record.readMembers members [] start = .ok final) :
    entry.get final = entry.get start := by
  refine readMembers_keeps (fun value ↦ entry.get value = entry.get start)
    (fun field hfield _ hfound ↦ ?_) hread rfl
  exact hconsists.keeps hentry (· = entry.get start) field hfield fun hname ↦
    hfound (hname ▸ hmissing)

/-- A part that an object mentions has the value that is written. -/
theorem read_eq_of_found (hconsists : record.Consists entries) (hentry : entry ∈ entries)
    {node : Node} (hfound : members.find? entry.name = some node)
    (hread : record.readMembers members [] start = .ok final) :
    entry.codec.read node = .ok (entry.get final) := by
  refine readMembers_finds (fun value ↦ entry.codec.read node = .ok (entry.get value))
    hconsists.nodup (hconsists.field_mem hentry)
    (hconsists.keeps hentry fun inner ↦ entry.codec.read node = .ok inner)
    (fun value next hnext ↦ ?_) hfound hread
  obtain ⟨inner, hinner, rfl⟩ := exists_of_map_eq_ok hnext
  exact hinner.trans (congrArg Except.ok (hconsists.get_set entry hentry inner value).symm)

/-- A part that an object does not mention may be written out as it is at the start. -/
theorem readMembers_adds (hconsists : record.Consists entries) (hentry : entry ∈ entries)
    (hmissing : members.find? entry.name = none) {added : Node}
    (hstart : entry.codec.read added = .ok (entry.get start)) {richer : Members}
    (hadds : members.Adds entry.name added richer)
    (hread : record.readMembers members [] start = .ok final) :
    record.readMembers richer [] start = .ok final := by
  refine Record.readMembers_adds (fun value ↦ entry.get value = entry.get start)
    hconsists.nodup (hconsists.field_mem hentry) rfl
    (hconsists.keeps hentry (· = entry.get start)) (fun value hvalue ↦ ?_) hadds
    List.not_mem_nil hmissing hread rfl
  change (entry.codec.read added).map (fun inner ↦ entry.set inner value) = .ok value
  rw [hstart, ← hvalue]
  exact congrArg Except.ok (hconsists.set_get entry hentry value)

/-- A part may be written in another way that is read in the same way. -/
theorem readMembers_changes (hconsists : record.Consists entries) (hentry : entry ∈ entries)
    {node changed : Node}
    (hsame : ∀ ⦃inner : entry.τ⦄, entry.codec.read node = .ok inner →
      entry.codec.read changed = .ok inner)
    {richer : Members} (hchanges : members.Changes entry.name node changed richer)
    (hread : record.readMembers members [] start = .ok final) :
    record.readMembers richer [] start = .ok final := by
  refine Record.readMembers_changes hconsists.nodup (hconsists.field_mem hentry)
    (fun value next hnext ↦ ?_) hchanges hread
  obtain ⟨inner, hinner, rfl⟩ := exists_of_map_eq_ok hnext
  exact congrArg (Except.map _) (hsame hinner)

end Record.Consists

end LabelledMap.Json
