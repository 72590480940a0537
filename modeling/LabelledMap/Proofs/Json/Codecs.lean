import LabelledMap.Proofs.Json.Records
import LabelledMap.Proofs.Json.Text

/-!
# Codecs that restore what they write

A codec restores a value if what it writes for it is complete and is read as the value again
(`Codec.Restores`); its text then is read as the value too (`Codec.Restores.ofText_toText`).
Booleans, strings and integers are always restored. A number is restored if the text of its decimal
digits has its value again, and all that is made of numbers and of these others, lists,
dictionaries and records, is restored if its parts are.

A record is written field by field, and reading it puts one field after the other into the value to
start from. `Record.Restored` follows the fields from there to the value that they end up in.
-/

set_option autoImplicit false

namespace LabelledMap.Json

variable {α : Type} [Scalar α] [Legible α] {τ : Type}

/-- Whether a codec writes a value completely and reads what it writes as the value. -/
structure Codec.Restores (codec : Codec τ) (value : τ) : Prop where
  written : (codec.write value).Written
  read : codec.read (codec.write value) = .ok value

theorem Codec.Restores.ofText_toText {codec : Codec τ} {value : τ}
    (hrestores : codec.Restores value) : codec.ofText (codec.toText value) = .ok value :=
  (codec.ofText_toText hrestores.written).trans hrestores.read

/-! ### Numbers -/

namespace Literal

/-- The digits of a number begin with one that is not zero, unless there is only one. -/
theorem exists_digitsOf (value : Nat) :
    ∃ first rest, digitsOf value = first :: rest ∧ (rest = [] ∨ first ≠ 0) ∧
      (value ≠ 0 → first ≠ 0) := by
  induction value using digitsOf.induct with
  | case1 value hsmall =>
    rw [digitsOf, dif_pos hsmall]
    refine ⟨_, [], rfl, Or.inl rfl, fun hvalue hzero ↦ hvalue ?_⟩
    exact congrArg Fin.val hzero
  | case2 value hlarge ih =>
    obtain ⟨first, rest, heq, -, hfirst⟩ := ih
    have hfirst : first ≠ 0 := hfirst (by omega)
    rw [digitsOf, dif_neg hlarge, heq]
    exact ⟨first, _, rfl, Or.inr hfirst, fun _ ↦ hfirst⟩

theorem ofDigits_digitsOf (value : Nat) : ofDigits (digitsOf value) = value := by
  induction value using digitsOf.induct with
  | case1 value hsmall =>
    rw [digitsOf, dif_pos hsmall]
    exact Nat.zero_add value
  | case2 value hlarge ih =>
    rw [digitsOf, dif_neg hlarge]
    unfold ofDigits at ih ⊢
    rw [List.foldl_append, ih]
    exact Nat.div_add_mod' value 10

theorem written_ofInt (value : Int) : (ofInt value).Written := by
  obtain ⟨first, rest, heq, hfirst, -⟩ := exists_digitsOf value.natAbs
  exact ⟨⟨first, rest, heq, hfirst⟩, fun _ _ hnone ↦ nomatch hnone⟩

/-- An integer of 64 bits is written as one. -/
theorem integer?_ofInt {value : Int} (hlow : -9223372036854775808 ≤ value)
    (hhigh : value < 18446744073709551616) : (ofInt value).integer? = some value := by
  have hsize : wordCount = 18446744073709551616 := rfl
  unfold integer? ofInt
  dsimp only
  rw [ofDigits_digitsOf, hsize]
  split_ifs with hnegative hfits hfits
  · have hvalue := of_decide_eq_true hnegative
    exact congrArg some (by omega)
  · have hvalue := of_decide_eq_true hnegative
    exact absurd (by simp only [Bool.and_eq_true, decide_eq_true_eq]; omega) hfits
  · have hvalue : ¬value < 0 := fun hless ↦ hnegative (decide_eq_true hless)
    exact congrArg some (by omega)
  · have hvalue : ¬value < 0 := fun hless ↦ hnegative (decide_eq_true hless)
    omega

theorem written_ofFinite (negative : Bool) (size : Nat) (exponent : Int) :
    (ofFinite negative size exponent).Written := by
  have hdigits : ∀ count : Nat, digitsOf count ≠ [] := by
    intro count
    obtain ⟨first, rest, heq, -⟩ := exists_digitsOf count
    exact heq ▸ List.cons_ne_nil first rest
  have hplain : ∀ {digits : List Digit} {first : Digit} {rest fraction : List Digit},
      digits = first :: rest → (rest = [] ∨ first ≠ 0) →
        Written ⟨negative, digits, fraction, none⟩ :=
    fun heq hfirst ↦ ⟨⟨_, _, heq, hfirst⟩, fun _ _ hnone ↦ nomatch hnone⟩
  obtain ⟨first, rest, heq, hfirst, hpositive⟩ := exists_digitsOf size
  unfold ofFinite
  dsimp only
  rw [heq]
  split_ifs with hzero hfar hwhole hmixed
  · exact hplain rfl (Or.inl rfl)
  · refine ⟨⟨first, [], rfl, Or.inl rfl⟩, fun sign digits hexponent ↦ ?_⟩
    obtain ⟨-, rfl⟩ := Prod.mk.inj (Option.some.inj hexponent)
    exact hdigits _
  · exact hplain rfl (Or.inr (hpositive hzero))
  · exact hplain rfl (Or.inr (hpositive hzero))
  · exact hplain rfl (Or.inl rfl)

end Literal

/-! ### Single values -/

theorem Quote.text_ofString (text : String) :
    (Quote.ofString text).text = .ok text := by
  have hjoined : ∀ chars : List Char,
      joinPieces none (chars.map .char) = .ok chars := by
    intro chars
    induction chars with
    | nil => rfl
    | cons char chars ih =>
      rw [List.map_cons, joinPieces, ih]
      rfl
  unfold Quote.text Quote.ofString
  rw [hjoined]
  exact congrArg Except.ok (String.ofList_toList)

namespace Codec

theorem read_float_iff {literal : Literal} {value : α} :
    (float α).read (.number literal) = .ok value ↔ literal.value? = some value := by
  change literal.value = .ok value ↔ _
  unfold Literal.value
  cases (literal.value? : Option α) with
  | none => exact iff_of_false nofun nofun
  | some other =>
    exact ⟨fun hvalue ↦ congrArg some (Except.ok.inj hvalue),
      fun hvalue ↦ congrArg Except.ok (Option.some.inj hvalue)⟩

/-- A number is written as one, or as null where it has no digits. -/
theorem written_float (value : α) : ((float α).write value).Written := by
  unfold float
  dsimp only
  cases Legible.shortest .even value with
  | finite negative digits exponent => exact Literal.written_ofFinite negative digits exponent
  | infinite | notANumber => trivial

/-- A number is restored just if its text is read as the number. -/
theorem restores_float_iff {value : α} :
    (float α).Restores value ↔ (float α).ofText ((float α).toText value) = .ok value :=
  ⟨fun hrestores ↦ hrestores.ofText_toText, fun htext ↦ ⟨written_float value,
    ((float α).ofText_toText (written_float value)).symm.trans htext⟩⟩

theorem restores_boolean (value : Bool) : (boolean α).Restores value := ⟨trivial, rfl⟩

theorem restores_string (text : String) : (string α).Restores text :=
  ⟨Quote.plain_ofString text, Quote.text_ofString text⟩

/-- An integer of 64 bits is restored if it is in the range of the codec. -/
theorem restores_integer (wanted : Wanted) {low high : Int} {ofInt : Int → τ} {toInt : τ → Int}
    {value : τ} (hlow : -9223372036854775808 ≤ toInt value)
    (hhigh : toInt value < 18446744073709551616)
    (hrange : low ≤ toInt value ∧ toInt value ≤ high) (hvalue : ofInt (toInt value) = value) :
    (integer α wanted low high ofInt toInt).Restores value := by
  refine ⟨Literal.written_ofInt _, ?_⟩
  unfold integer
  dsimp only
  rw [Literal.integer?_ofInt hlow hhigh]
  dsimp only
  rw [if_pos (by simpa using hrange), hvalue]

theorem restores_int32 (value : Int32) : (int32 α).Restores value := by
  have hlow := Int32.le_toInt value
  have hhigh := Int32.toInt_lt value
  exact restores_integer .int32 (by omega) (by omega) (by omega) (Int32.ofInt_toInt value)

theorem restores_uint64 (value : UInt64) : (uint64 α).Restores value := by
  have hhigh := value.toNat_lt
  exact restores_integer .uint64 (by omega) (by omega) (by omega) (UInt64.ofNat_toNat)

end Codec

/-! ### Collections -/

theorem Items.written_ofList {nodes : List Node} (hwritten : ∀ node ∈ nodes, node.Written) :
    (Items.ofList nodes).Written := by
  induction nodes with
  | nil => rfl
  | cons node nodes ih =>
    obtain ⟨hnode, hnodes⟩ := List.forall_mem_cons.mp hwritten
    exact ⟨hnode, ih hnodes⟩

theorem Members.written_ofList {members : List (Quote × Node)}
    (hwritten : ∀ member ∈ members, member.1.Plain ∧ member.2.Written) :
    (Members.ofList members).Written := by
  induction members with
  | nil => rfl
  | cons member members ih =>
    obtain ⟨⟨hkey, hnode⟩, hmembers⟩ := List.forall_mem_cons.mp hwritten
    exact ⟨hkey, hnode, ih hmembers⟩

namespace Codec

/-- A value that may be missing is restored if it is when it is not. -/
theorem restores_optional {codec : Codec τ} {value : Option τ}
    (hrestores : ∀ present ∈ value, codec.Restores present)
    (hnull : ∀ present ∈ value, codec.write present ≠ .null) :
    (optional codec).Restores value := by
  cases value with
  | none => exact ⟨trivial, rfl⟩
  | some present =>
    have hpresent := hrestores present rfl
    refine ⟨hpresent.written, ?_⟩
    have hread : (optional codec).read (codec.write present) =
        (codec.read (codec.write present)).map some := by
      unfold optional
      dsimp only
      split
      · next heq => exact absurd heq (hnull present rfl)
      · rfl
    exact hread.trans (congrArg (Except.map some) hpresent.read)

theorem readItems_ofList {codec : Codec τ} {values : List τ}
    (hrestores : ∀ value ∈ values, codec.Restores value) :
    readItems codec.read (.ofList (values.map codec.write)) = .ok values := by
  induction values with
  | nil => rfl
  | cons value values ih =>
    obtain ⟨hvalue, hvalues⟩ := List.forall_mem_cons.mp hrestores
    rw [List.map_cons, Items.ofList, readItems, hvalue.read, ih hvalues]
    rfl

/-- A list is restored if its values are. -/
theorem restores_list {codec : Codec τ} {values : List τ}
    (hrestores : ∀ value ∈ values, codec.Restores value) : (list α codec).Restores values :=
  ⟨Items.written_ofList (List.forall_mem_map.mpr fun value hvalue ↦
    (hrestores value hvalue).written), readItems_ofList hrestores⟩

/-- An entry whose key comes after all others is put at the end. -/
theorem entries_insert_of_lt {dictionary : Dictionary τ} {key : String} {value : τ}
    (hlast : ∀ entry ∈ dictionary.entries, entry.1 < key) :
    (dictionary.insert key value).entries = dictionary.entries ++ [(key, value)] := by
  change Dictionary.insertEntry key value dictionary.entries = _
  generalize dictionary.entries = entries at hlast
  induction entries with
  | nil => rfl
  | cons entry entries ih =>
    obtain ⟨hentry, hentries⟩ := List.forall_mem_cons.mp hlast
    have hne : key ≠ entry.1 := fun heq ↦ String.lt_irrefl _ (heq ▸ hentry)
    rw [Dictionary.insertEntry, if_neg (String.lt_asymm hentry), if_neg hne, ih hentries]
    rfl

/-- Entries in the order of their keys are read one behind the other. -/
theorem readEntries_ofList {codec : Codec τ} {entries : List (String × τ)}
    (hrestores : ∀ entry ∈ entries, codec.Restores entry.2) {read : Dictionary τ}
    (hordered : (read.entries ++ entries).Pairwise fun entry later ↦ entry.1 < later.1) :
    readEntries codec.read read
        (.ofList (entries.map fun (key, value) ↦ (.ofString key, codec.write value))) =
      .ok ⟨read.entries ++ entries, hordered⟩ := by
  induction entries generalizing read with
  | nil =>
    refine congrArg Except.ok (Dictionary.ext ?_)
    exact (List.append_nil _).symm
  | cons entry entries ih =>
    obtain ⟨hentry, hentries⟩ := List.forall_mem_cons.mp hrestores
    have hlast : ∀ earlier ∈ read.entries, earlier.1 < entry.1 := fun earlier hearlier ↦
      (List.pairwise_append.mp hordered).2.2 earlier hearlier entry List.mem_cons_self
    have hinserted : (read.insert entry.1 entry.2).entries = read.entries ++ [entry] :=
      entries_insert_of_lt hlast
    have hnext : ((read.insert entry.1 entry.2).entries ++ entries).Pairwise
        fun entry later ↦ entry.1 < later.1 := by
      rw [hinserted, List.append_assoc]
      exact hordered
    rw [List.map_cons, Members.ofList, readEntries, Quote.text_ofString]
    dsimp only [bind, Except.bind]
    rw [hentry.read]
    refine (ih hentries hnext).trans (congrArg Except.ok (Dictionary.ext ?_))
    change (read.insert entry.1 entry.2).entries ++ entries = read.entries ++ entry :: entries
    rw [hinserted, List.append_assoc]
    rfl

/-- A dictionary is restored if its values are. -/
theorem restores_dictionary {codec : Codec τ} {values : Dictionary τ}
    (hrestores : ∀ entry ∈ values.entries, codec.Restores entry.2) :
    (dictionary α codec).Restores values := by
  have hordered : ((∅ : Dictionary τ).entries ++ values.entries).Pairwise
      fun entry later ↦ entry.1 < later.1 := values.ordered
  refine ⟨Members.written_ofList (List.forall_mem_map.mpr fun entry hentry ↦
    ⟨Quote.plain_ofString entry.1, (hrestores entry hentry).written⟩), ?_⟩
  exact readEntries_ofList hrestores hordered

end Codec

/-! ### Records -/

namespace Record

variable {ρ : Type} {record : Record ρ}

/-- Fields of a value that are written and read again, one after the other into some value to start
from, until it has become another. -/
inductive Restored (value : ρ) : List (Field ρ) → ρ → ρ → Prop
  | nil {current : ρ} : Restored value [] current current
  | cons {field : Field ρ} {fields : List (Field ρ)} {current next final : ρ}
    (hwritten : (field.write value).Written)
    (hread : field.read (field.write value) current = .ok next)
    (hrest : Restored value fields next final) : Restored value (field :: fields) current final

theorem Restored.written {value start final : ρ} {fields : List (Field ρ)}
    (hrestored : Restored value fields start final) :
    ∀ field ∈ fields, (field.write value).Written := by
  induction hrestored with
  | nil => exact fun field hfield ↦ absurd hfield List.not_mem_nil
  | cons hwritten hread hrest ih => exact List.forall_mem_cons.mpr ⟨hwritten, ih⟩

/-- A record that is written is read field by field. -/
theorem readMembers_ofList (hnames : (record.fields.map (·.name)).Nodup) {value final : ρ}
    {todo : List (Field ρ)} {current : ρ} (hrestored : Restored value todo current final) :
    ∀ {done : List (Field ρ)}, record.fields = done ++ todo →
      ∀ {seen : List String}, (∀ name, name ∈ seen ↔ name ∈ done.map (·.name)) →
        record.readMembers (.ofList (todo.map fun field ↦
          (.ofString field.name, field.write value))) seen current = .ok final := by
  induction hrestored with
  | nil =>
    intro done hfields seen hseen
    have hfound : record.fields.find? (fun field ↦ field.required && !seen.contains field.name) =
        none := by
      refine List.find?_eq_none.mpr fun field hfield ↦ ?_
      rw [hfields, List.append_nil] at hfield
      have hname : field.name ∈ seen := (hseen _).mpr (List.mem_map_of_mem hfield)
      simp [hname]
    rw [List.map_nil, Members.ofList, readMembers, hfound]
  | @cons field fields current next final hwritten hread hrest ih =>
    intro done hfields seen hseen
    have hunseen : field.name ∉ seen := by
      rw [hfields, List.map_append] at hnames
      refine fun hmem ↦ (List.nodup_append.mp hnames).2.2 field.name ((hseen _).mp hmem)
        field.name List.mem_cons_self rfl
    have hfield : field ∈ record.fields :=
      hfields ▸ List.mem_append_right done List.mem_cons_self
    rw [List.map_cons, Members.ofList,
      readMembers_known hnames hfield (Quote.text_ofString _) hread hunseen]
    have hsplit : record.fields = (done ++ [field]) ++ fields := by
      rw [hfields, List.append_assoc]
      rfl
    refine ih hsplit fun name ↦ ?_
    rw [List.mem_cons, hseen, List.map_append, List.mem_append, List.map_singleton,
      List.mem_singleton, or_comm]

variable (α) in
/-- A record is read into a value to start from as it was written. Assumes: no two fields have the
same name. -/
theorem readInto_write (hnames : (record.fields.map (·.name)).Nodup) {value start final : ρ}
    (hrestored : Restored value record.fields start final) :
    record.readInto α start (record.write value) = .ok final :=
  readMembers_ofList hnames hrestored (List.nil_append _).symm fun _ ↦ Iff.rfl

theorem written_write {value start final : ρ}
    (hrestored : Restored value record.fields start final) : (record.write value).Written :=
  Members.written_ofList (List.forall_mem_map.mpr fun field hfield ↦
    ⟨Quote.plain_ofString field.name, hrestored.written field hfield⟩)

/-- A record is restored if its fields are. Assumes: no two fields have the same name. -/
theorem restores_codec (hnames : (record.fields.map (·.name)).Nodup) {value start : ρ}
    (hrestored : Restored value record.fields start value) :
    (record.codec α start).Restores value :=
  ⟨written_write hrestored, readInto_write α hnames hrestored⟩

/-- A field with a codec of its own is put into a record if its value is restored. -/
theorem Restored.of {τ : Type} {name : String} {required : Bool} {codec : Codec τ} {get : ρ → τ}
    {set : τ → ρ → ρ} {value current final : ρ} {fields : List (Field ρ)}
    (hrestores : codec.Restores (get value))
    (hrest : Restored value fields (set (get value) current) final) :
    Restored value (Field.of name required codec get set :: fields) current final :=
  .cons hrestores.written (congrArg (Except.map _) hrestores.read) hrest

end Record

end LabelledMap.Json
