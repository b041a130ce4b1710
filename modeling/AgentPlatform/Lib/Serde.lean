import AgentPlatform.Lib.JsonScalars

/-!
# Reading and writing values as JSON

How a record is read from a document: by the names of an object or by the places of a list, where
unknown fields are passed over and a known field stands once. A tagged union is read by its tag,
with what stands beside the tag kept for the variant. A record is written as an object of the
fields that it has. A format reads and writes one type; it is sound when it reads again what it
wrote of anything it read.
-/

namespace Json

/-! ## Decoding text -/

/-- A value from the text of its document. -/
def fromStr {α : Type} (read : Doc → Option α) (text : String) : Option α := (parse text).bind read

@[simp] theorem fromStr_text {α : Type} (read : Doc → Option α) (d : Doc) :
    fromStr read d.text = read d := by
  rw [fromStr, parse_text]
  rfl

/-- The document of raw text. -/
def Doc.ofRaw (text : String) : Doc := (parse text).getD .null

@[simp] theorem Doc.ofRaw_text (d : Doc) : Doc.ofRaw d.text = d := by
  rw [Doc.ofRaw, parse_text]
  rfl

/-! ## Strings that spell characters -/

mutual

/-- Every string of the document spells characters. -/
def Doc.readable : Doc → Bool
  | .string pieces => (readPieces pieces).isSome
  | .array items => items.readable
  | .object fields => fields.readable
  | _ => true

def Items.readable : Items → Bool
  | .last _ value _ => value.readable
  | .more _ value _ rest => value.readable && rest.readable

def Fields.readable : Fields → Bool
  | .last _ key _ _ value _ => (readPieces key).isSome && value.readable
  | .more _ key _ _ value _ rest => (readPieces key).isSome && value.readable && rest.readable

end

@[simp] theorem readable_ofString (s : String) : (Doc.ofString s).readable = true := by
  rw [Doc.ofString, Doc.readable, readPieces_quote]
  rfl

@[simp] theorem readable_ofInt (n : Int) : (Doc.ofInt n).readable = true := rfl

/-! ## Lists -/

def noSpace : Space := ⟨[], rfl⟩

def Items.ofList (d : Doc) : List Doc → Items
  | [] => .last noSpace d noSpace
  | d' :: ds => .more noSpace d noSpace (Items.ofList d' ds)

/-- The document of a list. -/
def Doc.ofList : List Doc → Doc
  | [] => .emptyArray noSpace
  | d :: ds => .array (Items.ofList d ds)

/-- The documents of a list. -/
def Doc.list? : Doc → Option (List Doc)
  | .emptyArray _ => some []
  | .array items => some items.toList
  | _ => none

theorem Items.toList_ofList (d : Doc) (ds : List Doc) : (Items.ofList d ds).toList = d :: ds := by
  induction ds generalizing d with
  | nil => rfl
  | cons d' ds ih => rw [Items.ofList, Items.toList, ih]

@[simp] theorem list?_ofList (ds : List Doc) : (Doc.ofList ds).list? = some ds := by
  cases ds with
  | nil => rfl
  | cons d ds => rw [Doc.ofList, Doc.list?, Items.toList_ofList]

/-! ## Records -/

/-- A field of a record: its name, and whether a list may end before it. -/
structure Slot where
  key : String
  defaulted : Bool := false

/-- What a record is read from: named fields, or a list in the order of the slots. -/
inductive Body where
  | named (entries : List (String × Doc))
  | listed (items : List Doc)

/-- The name and the document of a field. -/
def readField (field : List Piece × Doc) : Option (String × Doc) :=
  (readPieces field.1).map fun cs => (String.ofList cs, field.2)

def Doc.body? : Doc → Option Body
  | .emptyArray _ => some (.listed [])
  | .array items => some (.listed items.toList)
  | .emptyObject _ => some (.named [])
  | .object fields => (fields.toList.mapM readField).map .named
  | _ => none

/-- The fields that a record is read from, by name. -/
abbrev Access := String → Option Doc

def lookup (entries : List (String × Doc)) : Access := fun key =>
  (entries.find? (·.1 == key)).map (·.2)

/-- The items of a list, one for each slot. -/
def takeSlots : List Slot → List Doc → Option Access
  | [], [] => some fun _ => none
  | [], _ :: _ => none
  | slot :: slots, [] => if slot.defaulted then takeSlots slots [] else none
  | slot :: slots, d :: ds =>
    (takeSlots slots ds).map fun rest key => if key = slot.key then some d else rest key

/-- The fields of a record. A name of a slot may stand once only; any other name is passed over. -/
def Body.access (slots : List Slot) : Body → Option Access
  | .named entries =>
    if slots.all fun slot => (entries.filter (·.1 == slot.key)).length ≤ 1 then some (lookup entries)
    else none
  | .listed items => takeSlots slots items

def Doc.access (slots : List Slot) (d : Doc) : Option Access := d.body?.bind (·.access slots)

/-- The tag of a tagged union, and what the variant is read from. It is kept as values, so every
string in it has to spell characters. -/
def Body.untag (tag : String) : Body → Option (String × Body)
  | .named entries =>
    match entries.filter (·.1 == tag) with
    | [entry] =>
      if (entries.filter (·.1 != tag)).all (·.2.readable) then
        entry.2.string?.map fun word => (word, .named (entries.filter (·.1 != tag)))
      else none
    | _ => none
  | .listed [] => none
  | .listed (d :: items) =>
    if items.all (·.readable) then d.string?.map fun word => (word, .listed items) else none

/-- A variant without data passes over whatever a record names. -/
def Body.isUnit : Body → Bool
  | .named _ => true
  | .listed items => items.isEmpty

/-! ## Fields -/

/-- A field that may be absent. A null is read as absence. -/
def optional {α : Type} (read : Doc → Option α) : Option Doc → Option (Option α)
  | none => some none
  | some .null => some none
  | some d => (read d).map some

/-- A field whose null is a value, and which is absent by default. -/
def presentRaw : Option Doc → Option (Option String)
  | none => some none
  | some d => some (some d.text)

@[simp] theorem optional_none {α : Type} (read : Doc → Option α) :
    optional read none = some none := rfl

@[simp] theorem presentRaw_none : presentRaw none = some none := rfl

@[simp] theorem presentRaw_some (d : Doc) : presentRaw (some d) = some (some d.text) := rfl

theorem optional_some {α : Type} (read : Doc → Option α) {d : Doc} (value : d ≠ .null) :
    optional read (some d) = (read d).map some := by
  cases d with
  | null => exact absurd rfl value
  | _ => rfl

/-! ## Writing records -/

/-- The fields that are there. -/
def present (fields : List (String × Option Doc)) : List (String × Doc) :=
  fields.filterMap fun field => field.2.map fun d => (field.1, d)

def Fields.ofEntries (entry : String × Doc) : List (String × Doc) → Fields
  | [] => .last noSpace (entry.1.toList.map quote) noSpace noSpace entry.2 noSpace
  | entry' :: entries =>
    .more noSpace (entry.1.toList.map quote) noSpace noSpace entry.2 noSpace
      (Fields.ofEntries entry' entries)

def Doc.ofEntries : List (String × Doc) → Doc
  | [] => .emptyObject noSpace
  | entry :: entries => .object (Fields.ofEntries entry entries)

theorem printKey_quote {key : String} (plain : ∀ c ∈ key.toList, isPlain c = true) :
    printKey (key.toList.map quote) noSpace noSpace = '"' :: key.toList ++ ['"', ':'] := by
  simp [printKey, printPieces_quote plain, noSpace]

/-- The document of a record: an object of the fields that are there. -/
def Doc.record (fields : List (String × Option Doc)) : Doc := .ofEntries (present fields)

/-- The field of that name. -/
def pick (fields : List (String × Option Doc)) : Access := fun key =>
  (fields.find? (·.1 == key)).bind (·.2)

/-- The names stand once each. -/
def Distinct (fields : List (String × Option Doc)) : Prop := (fields.map (·.1)).Nodup

instance (fields : List (String × Option Doc)) : Decidable (Distinct fields) :=
  inferInstanceAs (Decidable (fields.map (·.1)).Nodup)

theorem Fields.mapM_ofEntries (entry : String × Doc) (entries : List (String × Doc)) :
    (Fields.ofEntries entry entries).toList.mapM readField = some (entry :: entries) := by
  have hfield : ∀ entry : String × Doc,
      readField (entry.1.toList.map quote, entry.2) = some entry := by
    intro entry
    rw [readField, readPieces_quote, Option.map_some, String.ofList_toList]
  induction entries generalizing entry with
  | nil =>
    rw [Fields.ofEntries, Fields.toList, List.mapM_cons, hfield]
    rfl
  | cons entry' entries ih =>
    rw [Fields.ofEntries, Fields.toList, List.mapM_cons, hfield, ih]
    rfl

theorem body?_ofEntries (entries : List (String × Doc)) :
    (Doc.ofEntries entries).body? = some (.named entries) := by
  cases entries with
  | nil => rfl
  | cons entry entries =>
    rw [Doc.ofEntries, Doc.body?, Fields.mapM_ofEntries]
    rfl

@[simp] theorem pick_nil (key : String) : pick [] key = none := rfl

@[simp] theorem pick_cons (name : String) (d : Option Doc) (fields : List (String × Option Doc))
    (key : String) :
    pick ((name, d) :: fields) key = if name = key then d else pick fields key := by
  by_cases hname : name = key
  · simp [pick, hname]
  · simp [pick, hname]

theorem present_cons (name : String) (d : Option Doc) (fields : List (String × Option Doc)) :
    present ((name, d) :: fields) = (d.map (name, ·)).toList ++ present fields := by
  cases d <;> rfl

/-- A field that is there has the name of a field of the record. -/
theorem mem_present {fields : List (String × Option Doc)} {entry : String × Doc}
    (hentry : entry ∈ present fields) : (entry.1, some entry.2) ∈ fields := by
  obtain ⟨⟨name, d⟩, hfield, hd⟩ := List.mem_filterMap.mp hentry
  obtain ⟨d', rfl, rfl⟩ := Option.map_eq_some_iff.mp hd
  exact hfield

/-- Every field that is there spells characters. -/
def ReadableFields (fields : List (String × Option Doc)) : Prop :=
  ∀ entry ∈ present fields, entry.2.readable = true

@[simp] theorem readableFields_nil : ReadableFields [] := by
  intro entry hentry
  cases hentry

@[simp] theorem readableFields_cons (name : String) (d : Option Doc)
    (fields : List (String × Option Doc)) :
    ReadableFields ((name, d) :: fields) ↔
      (∀ x ∈ d, x.readable = true) ∧ ReadableFields fields := by
  rw [ReadableFields, present_cons]
  cases d with
  | none => simp [ReadableFields]
  | some d => simp [ReadableFields]

theorem filter_present_eq_nil {fields : List (String × Option Doc)} {key : String}
    (fresh : key ∉ fields.map (·.1)) : (present fields).filter (·.1 == key) = [] := by
  rw [List.filter_eq_nil_iff]
  intro entry hentry hkey
  apply fresh
  rw [beq_iff_eq] at hkey
  rw [← hkey]
  exact List.mem_map_of_mem (mem_present hentry)

theorem filter_present_ne {fields : List (String × Option Doc)} {key : String}
    (fresh : key ∉ fields.map (·.1)) : (present fields).filter (·.1 != key) = present fields := by
  rw [List.filter_eq_self]
  intro entry hentry
  rw [bne_iff_ne]
  rintro rfl
  exact fresh (List.mem_map_of_mem (mem_present hentry))

/-- The fields that are there, by name. -/
theorem lookup_present {fields : List (String × Option Doc)} (distinct : Distinct fields)
    (key : String) : lookup (present fields) key = pick fields key := by
  induction fields with
  | nil => rfl
  | cons field fields ih =>
    obtain ⟨name, d⟩ := field
    obtain ⟨hfresh, hdistinct⟩ := List.nodup_cons.mp distinct
    rw [pick_cons, present_cons]
    by_cases hname : name = key
    · rw [if_pos hname]
      cases d with
      | none =>
        rw [hname] at hfresh
        have hnone := filter_present_eq_nil hfresh
        rw [lookup, Option.map_none, Option.toList_none, List.nil_append,
          ← List.head?_filter, hnone]
        rfl
      | some d => simp [lookup, hname]
    · rw [if_neg hname, ← ih hdistinct]
      cases d with
      | none => rfl
      | some d => simp [lookup, hname]

theorem filter_present_length {fields : List (String × Option Doc)} (distinct : Distinct fields)
    (key : String) : ((present fields).filter (·.1 == key)).length ≤ 1 := by
  induction fields with
  | nil => exact Nat.zero_le 1
  | cons field fields ih =>
    obtain ⟨name, d⟩ := field
    obtain ⟨hfresh, hdistinct⟩ := List.nodup_cons.mp distinct
    rw [present_cons, List.filter_append, List.length_append]
    by_cases hname : name = key
    · rw [hname] at hfresh
      rw [filter_present_eq_nil hfresh]
      cases d with
      | none => exact Nat.zero_le 1
      | some d => simp [hname]
    · have hhead : (d.map (name, ·)).toList.filter (·.1 == key) = [] := by
        cases d with
        | none => rfl
        | some d => simp [hname]
      rw [hhead]
      have hrest := ih hdistinct
      simpa using hrest

theorem access_present (slots : List Slot) {fields : List (String × Option Doc)}
    (distinct : Distinct fields) : (Body.named (present fields)).access slots = some (pick fields) := by
  have hslots : (slots.all fun slot =>
      ((present fields).filter (·.1 == slot.key)).length ≤ 1) = true := by
    rw [List.all_eq_true]
    intro slot _
    exact decide_eq_true (filter_present_length distinct slot.key)
  rw [Body.access, if_pos hslots]
  congr 1
  funext key
  exact lookup_present distinct key

/-- What is written of a record is read by its names. -/
theorem access_record (slots : List Slot) {fields : List (String × Option Doc)}
    (distinct : Distinct fields) : (Doc.record fields).access slots = some (pick fields) := by
  rw [Doc.access, Doc.record, body?_ofEntries, Option.bind_some]
  exact access_present slots distinct

/-- What is written of a tagged union is read by its tag. -/
theorem untag_record {tag word : String} {fields : List (String × Option Doc)}
    (distinct : Distinct ((tag, some (Doc.ofString word)) :: fields))
    (readable : ReadableFields fields) :
    (Doc.record ((tag, some (.ofString word)) :: fields)).body?.bind (·.untag tag) =
      some (word, .named (present fields)) := by
  obtain ⟨hfresh, -⟩ := List.nodup_cons.mp distinct
  have htag : (present ((tag, some (Doc.ofString word)) :: fields)).filter (·.1 == tag) =
      [(tag, Doc.ofString word)] := by
    rw [present_cons, List.filter_append, filter_present_eq_nil hfresh]
    simp
  have hrest : (present ((tag, some (Doc.ofString word)) :: fields)).filter (·.1 != tag) =
      present fields := by
    rw [present_cons, List.filter_append, filter_present_ne hfresh]
    simp
  have hall : ((present fields).all (·.2.readable)) = true := List.all_eq_true.mpr readable
  rw [Doc.record, body?_ofEntries, Option.bind_some, Body.untag, htag, hrest]
  simp only [hall, if_pos, string?_ofString, Option.map_some]

theorem Fields.readable_ofEntries (entry : String × Doc) (entries : List (String × Doc)) :
    (Fields.ofEntries entry entries).readable = (entry :: entries).all (·.2.readable) := by
  induction entries generalizing entry with
  | nil => simp [Fields.ofEntries, Fields.readable, readPieces_quote]
  | cons entry' entries ih =>
    rw [Fields.ofEntries, Fields.readable, ih, readPieces_quote]
    simp

/-- A record is readable where its fields are. -/
theorem readable_record {fields : List (String × Option Doc)}
    (readable : ReadableFields fields) :
    (Doc.record fields).readable = true := by
  have hall : ((present fields).all (·.2.readable)) = true := List.all_eq_true.mpr readable
  rw [Doc.record]
  cases hentries : present fields with
  | nil => rfl
  | cons entry entries =>
    rw [Doc.ofEntries, Doc.readable, Fields.readable_ofEntries, ← hentries]
    exact hall

theorem record_ne_null (fields : List (String × Option Doc)) : Doc.record fields ≠ .null := by
  rw [Doc.record]
  cases present fields with
  | nil =>
    intro h
    cases h
  | cons entry entries =>
    intro h
    cases h

/-! ## Formats -/

/-- How the values of a type are read and written. -/
structure Format (α : Type) where
  read : Doc → Option α
  write : α → Doc

namespace Format

variable {α : Type}

/-- The value is read again from what is written for it, which is no null. -/
structure Writes (f : Format α) (a : α) : Prop where
  again : f.read (f.write a) = some a
  value : f.write a ≠ .null

/-- Whatever is read is read again from what is written for it. -/
def Sound (f : Format α) : Prop := ∀ d a, f.read d = some a → f.Writes a

/-- What is written for anything read spells characters. -/
def Readable (f : Format α) : Prop := ∀ d a, f.read d = some a → (f.write a).readable = true

/-- The text of a value. -/
def encode (f : Format α) (a : α) : String := (f.write a).text

/-- The value of a text. -/
def decode (f : Format α) (text : String) : Option α := fromStr f.read text

/-- What a text decodes to is decoded again from its encoding. -/
theorem Sound.roundTrip {f : Format α} (sound : f.Sound) {text : String} {a : α}
    (h : f.decode text = some a) : f.decode (f.encode a) = some a := by
  obtain ⟨d, -, hread⟩ := Option.bind_eq_some_iff.mp h
  rw [decode, encode, fromStr_text]
  exact (sound d a hread).again

/-! ### Scalars -/

def string : Format String where
  read := Doc.string?
  write := Doc.ofString

def bool : Format Bool where
  read
    | .bool b => some b
    | _ => none
  write := .bool

/-- An integer in a range. -/
def int (low high : Int) : Format Int where
  read d := d.int?.bind fun n => if low ≤ n ∧ n ≤ high then some n else none
  write := Doc.ofInt

def i64 : Format Int := int (-2 ^ 63) (2 ^ 63 - 1)

def u64 : Format UInt64 where
  read d := ((int 0 (2 ^ 64 - 1)).read d).map fun n => UInt64.ofNat n.toNat
  write n := Doc.ofInt n.toNat

/-- A floating-point number, by its digits. -/
def digits : Format String where
  read
    | .number digits => some (String.ofList digits.1)
    | _ => none
  write text := if h : isNumber text.toList = true then .number ⟨text.toList, h⟩ else .null

/-- Raw text. A null is a value of it. -/
def raw : Format String where
  read d := some d.text
  write := Doc.ofRaw

@[simp] theorem raw_read (d : Doc) : raw.read d = some d.text := rfl

theorem raw_again {d : Doc} {text : String} (h : raw.read d = some text) :
    raw.read (raw.write text) = some text := by
  cases h
  exact congrArg (fun d => some (Doc.text d)) (Doc.ofRaw_text d)

theorem string_writes (s : String) : string.Writes s := by
  refine ⟨string?_ofString s, ?_⟩
  intro h
  cases h

theorem bool_writes (b : Bool) : bool.Writes b := by
  refine ⟨rfl, ?_⟩
  intro h
  cases h

theorem int_sound (low high : Int) : (int low high).Sound := by
  intro d n h
  obtain ⟨m, -, hm⟩ := Option.bind_eq_some_iff.mp h
  split at hm
  · rename_i hrange
    cases hm
    refine ⟨?_, ?_⟩
    · show ((Doc.ofInt n).int?.bind fun m => if low ≤ m ∧ m ≤ high then some m else none) = some n
      rw [int?_ofInt, Option.bind_some, if_pos hrange]
    · intro h
      cases h
  · cases hm

theorem i64_sound : i64.Sound := int_sound _ _

theorem u64_writes (n : UInt64) : u64.Writes n := by
  have hrange : (0 : Int) ≤ (n.toNat : Int) ∧ (n.toNat : Int) ≤ 2 ^ 64 - 1 := by
    have hlt := n.toNat_lt
    omega
  refine ⟨?_, ?_⟩
  · show (((Doc.ofInt n.toNat).int?.bind fun m =>
      if (0 : Int) ≤ m ∧ m ≤ 2 ^ 64 - 1 then some m else none).map _) = some n
    rw [int?_ofInt, Option.bind_some, if_pos hrange, Option.map_some, Int.toNat_natCast,
      UInt64.ofNat_toNat]
  · intro h
    cases h

theorem digits_sound : digits.Sound := by
  intro d text h
  cases d with
  | number number =>
    cases h
    have hnumber : isNumber (String.ofList number.1).toList = true := by
      rw [String.toList_ofList]
      exact number.2
    refine ⟨?_, ?_⟩
    · simp only [digits, dif_pos hnumber, String.ofList_toList]
    · simp only [digits, dif_pos hnumber]
      intro h
      cases h
  | _ => cases h

/-! ### Words -/

/-- What stands for no data: a null, and in values that were kept also an empty object. -/
def isUnit (kept : Bool) : Doc → Bool
  | .null => true
  | .emptyObject _ => kept
  | _ => false

/-- A variant without data: its word, or an object with the word as its name and no data. -/
def word (kept : Bool) (asStr : α → String) (ofStr : String → Option α) : Format α where
  read
    | .string pieces => (Doc.string pieces).string?.bind ofStr
    | .object (.last _ key _ _ value _) =>
      if isUnit kept value then (Doc.string key).string?.bind ofStr else none
    | _ => none
  write a := Doc.ofString (asStr a)

theorem word_writes {kept : Bool} {asStr : α → String} {ofStr : String → Option α} {a : α}
    (again : ofStr (asStr a) = some a) : (word kept asStr ofStr).Writes a := by
  refine ⟨?_, ?_⟩
  · show (Doc.ofString (asStr a)).string?.bind ofStr = some a
    rw [string?_ofString, Option.bind_some, again]
  · intro h
    cases h

/-! ### Lists -/

def list (f : Format α) : Format (List α) where
  read d := d.list?.bind fun ds => ds.mapM f.read
  write items := Doc.ofList (items.map f.write)

theorem mapM_map_write {f : Format α} {items : List α}
    (again : ∀ a ∈ items, f.read (f.write a) = some a) :
    (items.map f.write).mapM f.read = some items := by
  induction items with
  | nil => rfl
  | cons a items ih =>
    obtain ⟨ha, hitems⟩ := List.forall_mem_cons.mp again
    rw [List.map_cons, List.mapM_cons, ha, ih hitems]
    rfl

theorem exists_of_mapM {β : Type} {g : β → Option α} {ds : List β} {items : List α}
    (h : ds.mapM g = some items) : ∀ a ∈ items, ∃ d ∈ ds, g d = some a := by
  induction ds generalizing items with
  | nil =>
    cases h
    intro a ha
    cases ha
  | cons d ds ih =>
    rw [List.mapM_cons] at h
    obtain ⟨a, ha, h⟩ := Option.bind_eq_some_iff.mp h
    obtain ⟨rest, hrest, h⟩ := Option.bind_eq_some_iff.mp h
    cases h
    intro b hb
    rcases List.mem_cons.mp hb with rfl | hb
    · exact ⟨d, List.mem_cons_self, ha⟩
    · obtain ⟨d', hd', hb⟩ := ih hrest b hb
      exact ⟨d', List.mem_cons_of_mem _ hd', hb⟩

theorem list_writes {f : Format α} {items : List α}
    (again : ∀ a ∈ items, f.read (f.write a) = some a) : (list f).Writes items := by
  refine ⟨?_, ?_⟩
  · show ((Doc.ofList (items.map f.write)).list?.bind fun ds => ds.mapM f.read) = some items
    rw [list?_ofList, Option.bind_some, mapM_map_write again]
  · show Doc.ofList (items.map f.write) ≠ .null
    cases items with
    | nil =>
      intro h
      cases h
    | cons a items =>
      intro h
      cases h

/-- What holds of every item read holds of the items of a list read. -/
theorem forall_of_list {f : Format α} {P : α → Prop} (all : ∀ d a, f.read d = some a → P a)
    {d : Doc} {items : List α} (h : (list f).read d = some items) : ∀ a ∈ items, P a := by
  obtain ⟨ds, -, hitems⟩ := Option.bind_eq_some_iff.mp h
  intro a ha
  obtain ⟨d', -, hread⟩ := exists_of_mapM hitems a ha
  exact all d' a hread

theorem Sound.list {f : Format α} (sound : f.Sound) : (list f).Sound := by
  intro d items h
  exact list_writes fun a ha => (forall_of_list sound h a ha).again

/-! ### Optional fields -/

/-- What holds of every value read holds of the value of an optional field. -/
theorem forall_of_optional {f : Format α} {P : α → Prop} (all : ∀ d a, f.read d = some a → P a)
    {r : Option Doc} {x : Option α} (h : optional f.read r = some x) : ∀ a ∈ x, P a := by
  intro a ha
  cases r with
  | none => cases h; cases ha
  | some d =>
    by_cases hnull : d = .null
    · subst hnull
      cases h
      cases ha
    · rw [optional_some f.read hnull] at h
      obtain ⟨a', hread, rfl⟩ := Option.map_eq_some_iff.mp h
      cases ha
      exact all d a hread

theorem optional_map {f : Format α} {x : Option α} (writes : ∀ a ∈ x, f.Writes a) :
    optional f.read (x.map f.write) = some x := by
  cases x with
  | none => rfl
  | some a =>
    have ha := writes a rfl
    rw [Option.map_some, optional_some f.read ha.value, ha.again]
    rfl

/-- A field that is written is there. -/
theorem optional_written {α : Type} {f : Format α} {a : α} (writes : f.Writes a) :
    optional f.read (some (f.write a)) = some (some a) := by
  rw [optional_some _ writes.value, writes.again]
  rfl

theorem presentRaw_again {r : Option Doc} {x : Option String} (h : presentRaw r = some x) :
    ∀ text ∈ x, raw.read (raw.write text) = some text := by
  intro text htext
  cases r with
  | none => cases h; cases htext
  | some d =>
    cases h
    cases htext
    exact raw_again (d := d) rfl

theorem presentRaw_map {x : Option String}
    (again : ∀ text ∈ x, raw.read (raw.write text) = some text) :
    presentRaw (x.map raw.write) = some x := by
  cases x with
  | none => rfl
  | some text =>
    have htext := again text rfl
    rw [raw_read] at htext
    rw [Option.map_some, presentRaw_some, htext]

end Format

end Json
