/-
# MetricsExporter.Exporter.Metadata -- the headers of the exporter

`metadata_map` turns the configured headers into gRPC metadata. It goes through a `HashMap`, in
whatever order that yields its entries, and what `tonic` makes of two different texts may be one
key: `x-a` and `X-A` are. So whether the headers are accepted does not depend on the order, but what
is sent may. `metadataMap_order` says what is sent in an order, and when it is the same in all.

Assumed: of the `tonic` crate, which is a parameter (`MetadataCrate`), that its map answers as it is
documented to (`MetadataCrate.Documented`). Nothing is assumed of which texts it accepts, nor of
which of them it takes for one key.

Left out: the order in which the metadata go over the wire. Only what is sent for each key is
spoken of.
-/
import MetricsExporter.Lib.Loops
import Mathlib.Data.List.Induction
import Mathlib.Data.List.Perm.Basic

namespace MetricsExporter.Exporter

open MetricsExporter.Lib

/-- What `metadata_map` uses of the `tonic` crate: the parsers of the two texts of a header, how a
key is shown, and the map with its operations. -/
structure MetadataCrate where
  Key : Type
  Value : Type
  MetadataMap : Type
  [decidableEq : DecidableEq Key]
  /-- `str::parse::<MetadataKey<Ascii>>` -/
  parseKey : String → Option Key
  /-- `str::parse::<MetadataValue<Ascii>>` -/
  parseValue : String → Option Value
  showKey : Key → String
  /-- `MetadataMap::new` -/
  new : MetadataMap
  /-- `MetadataMap::insert` -/
  insert : MetadataMap → Key → Value → MetadataMap
  /-- `MetadataMap::get` -/
  get : MetadataMap → Key → Option Value

namespace MetadataCrate

/-- What the crate documents of its map: a new one is empty, and an insertion replaces what there
was for its key and for no other. -/
structure Documented (tonic : MetadataCrate) : Prop where
  get_new : ∀ key, tonic.get tonic.new key = none
  get_insert : ∀ metadata key value, tonic.get (tonic.insert metadata key value) key = some value
  get_insert_of_ne : ∀ metadata key value key', key' ≠ key →
    tonic.get (tonic.insert metadata key value) key' = tonic.get metadata key'

variable (tonic : MetadataCrate)

instance : DecidableEq tonic.Key := tonic.decidableEq

/-- One round of the loop. The second error shows the key as it was parsed, since `key` is shadowed
by then. -/
def insertHeader (metadata : tonic.MetadataMap) (header : String × String) :
    Except String tonic.MetadataMap :=
  match tonic.parseKey header.1 with
  | none => .error ("invalid grpc metadata key: " ++ header.1)
  | some key =>
      match tonic.parseValue header.2 with
      | none => .error ("invalid grpc metadata value for key: " ++ tonic.showKey key)
      | some value => .ok (tonic.insert metadata key value)

/-- `metadata_map`, with the entries of the map in the order the loop gets them. -/
def metadataMap (headers : List (String × String)) : Except String tonic.MetadataMap := do
  let mut metadata := tonic.new
  for header in headers do
    metadata ← tonic.insertHeader metadata header
  return metadata

/-! ## What the headers say -/

/-- The key and the value a header stands for, if both texts are accepted. -/
def parse (header : String × String) : Option (tonic.Key × tonic.Value) := do
  let key ← tonic.parseKey header.1
  let value ← tonic.parseValue header.2
  return (key, value)

/-- What a header that is refused is refused with. -/
def refusal (header : String × String) : String :=
  match tonic.parseKey header.1 with
  | none => "invalid grpc metadata key: " ++ header.1
  | some key => "invalid grpc metadata value for key: " ++ tonic.showKey key

/-- The values the headers give for a key, in order. -/
def given (headers : List (String × String)) (key : tonic.Key) : List tonic.Value :=
  ((headers.filterMap tonic.parse).filter fun entry => entry.1 = key).map Prod.snd

/-- No two headers stand for different values of one key. -/
def Agree (headers : List (String × String)) : Prop :=
  ∀ h ∈ headers, ∀ h' ∈ headers, ∀ key value value',
    tonic.parse h = some (key, value) → tonic.parse h' = some (key, value') → value = value'

section

variable {tonic} {headers headers' : List (String × String)}

/-- What the headers give for a key. -/
theorem mem_given {key : tonic.Key} {value : tonic.Value} :
    value ∈ tonic.given headers key ↔
      ∃ header ∈ headers, tonic.parse header = some (key, value) := by
  unfold given
  constructor
  · intro hvalue
    obtain ⟨entry, hentry, rfl⟩ := List.mem_map.mp hvalue
    obtain ⟨hentry, hkey⟩ := List.mem_filter.mp hentry
    obtain ⟨header, hheader, hparse⟩ := List.mem_filterMap.mp hentry
    obtain rfl : entry.1 = key := of_decide_eq_true hkey
    exact ⟨header, hheader, hparse⟩
  · rintro ⟨header, hheader, hparse⟩
    have hentry : (key, value) ∈ headers.filterMap tonic.parse :=
      List.mem_filterMap.mpr ⟨header, hheader, hparse⟩
    exact List.mem_map.mpr ⟨_, List.mem_filter.mpr ⟨hentry, decide_eq_true rfl⟩, rfl⟩

/-- Header by header. -/
theorem given_append (key : tonic.Key) :
    tonic.given (headers ++ headers') key =
      tonic.given headers key ++ tonic.given headers' key := by
  simp [given]

/-! ## The loop -/

/-- A round inserts what the header stands for, or ends the loop. -/
theorem insertHeader_eq (metadata : tonic.MetadataMap) (header : String × String) :
    tonic.insertHeader metadata header =
      (tonic.parse header).elim (.error (tonic.refusal header)) fun entry =>
        .ok (tonic.insert metadata entry.1 entry.2) := by
  unfold insertHeader parse refusal
  cases tonic.parseKey header.1 with
  | none => rfl
  | some key => cases tonic.parseValue header.2 <;> rfl

/-- The loop parses all headers or stops at the first it cannot parse. -/
theorem metadataMap_eq (headers : List (String × String)) :
    tonic.metadataMap headers = headers.foldlM tonic.insertHeader tonic.new := by
  unfold metadataMap
  dsimp only
  rw [except_forIn tonic.insertHeader (fun _ _ => rfl)]
  cases headers.foldlM tonic.insertHeader tonic.new <;> rfl

/-- The insertion of what a header stands for. -/
def insertEntry (metadata : tonic.MetadataMap) (entry : tonic.Key × tonic.Value) :
    tonic.MetadataMap :=
  tonic.insert metadata entry.1 entry.2

/-- Headers that are all accepted are inserted one after the other. -/
theorem metadataMap_of_accepted (h : ∀ header ∈ headers, (tonic.parse header).isSome = true) :
    tonic.metadataMap headers =
      .ok ((headers.filterMap tonic.parse).foldl insertEntry tonic.new) := by
  rw [metadataMap_eq]
  generalize tonic.new = metadata
  induction headers generalizing metadata with
  | nil => rfl
  | cons header headers ih =>
      obtain ⟨haccepted, h⟩ := List.forall_mem_cons.mp h
      obtain ⟨entry, hparse⟩ := Option.isSome_iff_exists.mp haccepted
      rw [List.foldlM_cons, insertHeader_eq, hparse, List.filterMap_cons_some hparse]
      exact ih h (insertEntry metadata entry)

/-- The first header that is refused ends the loop with its error. -/
theorem metadataMap_of_refused (h : ¬ ∀ header ∈ headers, (tonic.parse header).isSome = true) :
    ∃ header ∈ headers, tonic.parse header = none ∧
      tonic.metadataMap headers = .error (tonic.refusal header) := by
  rw [metadataMap_eq]
  generalize tonic.new = metadata
  induction headers generalizing metadata with
  | nil => exact absurd nofun h
  | cons header headers ih =>
      cases hparse : tonic.parse header with
      | none =>
          refine ⟨header, List.mem_cons_self, hparse, ?_⟩
          rw [List.foldlM_cons, insertHeader_eq, hparse]
          rfl
      | some entry =>
          have hrest : ¬ ∀ header ∈ headers, (tonic.parse header).isSome = true := by
            intro hrest
            exact h (List.forall_mem_cons.mpr ⟨by rw [hparse]; rfl, hrest⟩)
          obtain ⟨refused, hmem, hnone, hloop⟩ := ih hrest (insertEntry metadata entry)
          refine ⟨refused, List.mem_cons_of_mem _ hmem, hnone, ?_⟩
          rw [List.foldlM_cons, insertHeader_eq, hparse]
          exact hloop

/-- It comes through exactly when both texts of each are accepted. -/
theorem exists_metadataMap_iff : (∃ metadata, tonic.metadataMap headers = .ok metadata) ↔
    ∀ header ∈ headers, (tonic.parse header).isSome = true := by
  by_cases h : ∀ header ∈ headers, (tonic.parse header).isSome = true
  · exact iff_of_true ⟨_, metadataMap_of_accepted h⟩ h
  · obtain ⟨header, -, -, hrefused⟩ := metadataMap_of_refused h
    rw [hrefused]
    exact iff_of_false nofun h

/-! ## What is sent for a key -/

/-- Of the entries of a key the last one stays. -/
theorem get_foldl_insertEntry (htonic : tonic.Documented)
    (entries : List (tonic.Key × tonic.Value)) (metadata : tonic.MetadataMap) (key : tonic.Key) :
    tonic.get (entries.foldl insertEntry metadata) key =
      ((entries.filter fun entry => entry.1 = key).map Prod.snd).getLast?.or
        (tonic.get metadata key) := by
  induction entries using List.reverseRecOn with
  | nil => rfl
  | append_singleton entries entry ih =>
      rw [List.foldl_concat, insertEntry, List.filter_append]
      by_cases hkey : entry.1 = key
      · subst hkey
        simp [htonic.get_insert]
      · rw [htonic.get_insert_of_ne _ _ _ _ (Ne.symm hkey), ih]
        simp [hkey]

/-- What is sent for a key is the last that the headers give for it. -/
theorem get_metadataMap (htonic : tonic.Documented) {metadata : tonic.MetadataMap}
    (hok : tonic.metadataMap headers = .ok metadata) (key : tonic.Key) :
    tonic.get metadata key = (tonic.given headers key).getLast? := by
  rw [metadataMap_of_accepted (exists_metadataMap_iff.mp ⟨metadata, hok⟩)] at hok
  obtain rfl := Except.ok.inj hok
  rw [get_foldl_insertEntry htonic, htonic.get_new, Option.or_none, given]

/-- Where the headers agree, what is sent for a key is what any of them says. -/
theorem get_eq_some_iff (htonic : tonic.Documented) (hagree : tonic.Agree headers)
    {metadata : tonic.MetadataMap} (hok : tonic.metadataMap headers = .ok metadata)
    (key : tonic.Key) (value : tonic.Value) :
    tonic.get metadata key = some value ↔
      ∃ header ∈ headers, tonic.parse header = some (key, value) := by
  rw [get_metadataMap htonic hok, ← mem_given]
  constructor
  · exact List.mem_of_getLast?
  · intro hvalue
    obtain ⟨last, hlast⟩ := Option.isSome_iff_exists.mp
      (List.getLast?_isSome.mpr (List.ne_nil_of_mem hvalue))
    obtain ⟨header, hheader, hparse⟩ := mem_given.mp hvalue
    obtain ⟨header', hheader', hparse'⟩ := mem_given.mp (List.mem_of_getLast? hlast)
    rw [hlast, hagree header hheader header' hheader' key value last hparse hparse']

/-- Some order has the value of a given header sent: the one in which the loop comes to it last. -/
theorem exists_order_of_header (htonic : tonic.Documented) {header : String × String}
    (hheader : header ∈ headers)
    (haccepted : ∀ header ∈ headers, (tonic.parse header).isSome = true)
    {key : tonic.Key} {value : tonic.Value} (hparse : tonic.parse header = some (key, value)) :
    ∃ headers' metadata, headers.Perm headers' ∧ tonic.metadataMap headers' = .ok metadata ∧
      tonic.get metadata key = some value := by
  have hperm : headers.Perm (headers.erase header ++ [header]) :=
    (List.perm_cons_erase hheader).trans (List.perm_append_singleton ..).symm
  have hok := metadataMap_of_accepted fun h hh => haccepted h (hperm.symm.subset hh)
  refine ⟨_, _, hperm, hok, ?_⟩
  have hlast : tonic.given [header] key = [value] := by simp [given, hparse]
  rw [get_metadataMap htonic hok, given_append, hlast, List.getLast?_append,
    List.getLast?_singleton, Option.some_or]

/-- **The order of the headers.** Whether `metadata_map` succeeds does not depend on the order in
which the `HashMap` yields its entries, and it fails with the error of a header that is refused.
What it sends for a key is the value of the last header that stands for it, so that the others are
lost; what it sends is the same in every order exactly when no two headers stand for different
values of one key. -/
theorem metadataMap_order (tonic : MetadataCrate) (htonic : tonic.Documented)
    (headers : List (String × String)) :
    (∀ headers', headers.Perm headers' → ((∃ metadata, tonic.metadataMap headers' = .ok metadata) ↔
      ∀ header ∈ headers, (tonic.parse header).isSome = true)) ∧
    (∀ err, tonic.metadataMap headers = .error err →
      ∃ header ∈ headers, tonic.parse header = none ∧ err = tonic.refusal header) ∧
    ∀ metadata, tonic.metadataMap headers = .ok metadata →
      (∀ key, tonic.get metadata key = (tonic.given headers key).getLast?) ∧
      ((∀ headers' metadata', headers.Perm headers' → tonic.metadataMap headers' = .ok metadata' →
          ∀ key, tonic.get metadata' key = tonic.get metadata key) ↔
        tonic.Agree headers) := by
  refine ⟨?_, ?_, ?_⟩
  · intro headers' hperm
    rw [exists_metadataMap_iff]
    exact ⟨fun h header hheader => h header (hperm.subset hheader),
      fun h header hheader => h header (hperm.symm.subset hheader)⟩
  · intro err herr
    have hrefused : ¬ ∀ header ∈ headers, (tonic.parse header).isSome = true := by
      intro haccepted
      rw [metadataMap_of_accepted haccepted] at herr
      cases herr
    obtain ⟨header, hheader, hparse, hloop⟩ := metadataMap_of_refused hrefused
    rw [herr] at hloop
    exact ⟨header, hheader, hparse, Except.error.inj hloop⟩
  · intro metadata hok
    have haccepted := exists_metadataMap_iff.mp ⟨metadata, hok⟩
    refine ⟨get_metadataMap htonic hok, ?_, ?_⟩
    · -- each of the two headers comes last in some order
      intro hsame h hh h' hh' key value value' hparse hparse'
      obtain ⟨order, sent, hperm, hsent, hvalue⟩ :=
        exists_order_of_header htonic hh haccepted hparse
      obtain ⟨order', sent', hperm', hsent', hvalue'⟩ :=
        exists_order_of_header htonic hh' haccepted hparse'
      rw [hsame order sent hperm hsent key] at hvalue
      rw [hsame order' sent' hperm' hsent' key] at hvalue'
      exact Option.some.inj (hvalue.symm.trans hvalue')
    · intro hagree headers' metadata' hperm hok' key
      have hagree' : tonic.Agree headers' := fun h hh h' hh' =>
        hagree h (hperm.symm.subset hh) h' (hperm.symm.subset hh')
      apply Option.ext
      intro value
      rw [get_eq_some_iff htonic hagree' hok', get_eq_some_iff htonic hagree hok]
      simp only [hperm.mem_iff]

end

/-! ## A crate that takes keys without regard to case -/

/-- Keys are taken in lower case, and the map is a function. -/
def lowerCase : MetadataCrate where
  Key := List Char
  Value := String
  MetadataMap := List Char → Option String
  parseKey text := if text = "" then none else some (text.toList.map Char.toLower)
  parseValue := some
  showKey := String.ofList
  new _ := none
  insert metadata key value key' := if key = key' then some value else metadata key'
  get metadata key := metadata key

/-- It behaves as the crate does where keys differ in case. -/
theorem lowerCase_documented : lowerCase.Documented where
  get_new _ := rfl
  get_insert _ _ _ := if_pos rfl
  get_insert_of_ne _ _ _ _ hne := if_neg (Ne.symm hne)

/-- Two headers of one key, and one of another. -/
def caseHeaders : List (String × String) := [("x-a", "1"), ("x-b", "2"), ("X-A", "3")]

theorem metadataMap_order_lowerCase :
    (∀ headers', caseHeaders.Perm headers' →
      ((∃ metadata, lowerCase.metadataMap headers' = .ok metadata) ↔
        ∀ header ∈ caseHeaders, (lowerCase.parse header).isSome = true)) ∧
    (∀ err, lowerCase.metadataMap caseHeaders = .error err →
      ∃ header ∈ caseHeaders, lowerCase.parse header = none ∧ err = lowerCase.refusal header) ∧
    ∀ metadata, lowerCase.metadataMap caseHeaders = .ok metadata →
      (∀ key, lowerCase.get metadata key = (lowerCase.given caseHeaders key).getLast?) ∧
      ((∀ headers' metadata', caseHeaders.Perm headers' →
          lowerCase.metadataMap headers' = .ok metadata' →
          ∀ key, lowerCase.get metadata' key = lowerCase.get metadata key) ↔
        lowerCase.Agree caseHeaders) :=
  metadataMap_order lowerCase lowerCase_documented caseHeaders

end MetadataCrate

end MetricsExporter.Exporter
