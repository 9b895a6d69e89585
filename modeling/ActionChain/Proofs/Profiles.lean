import ActionChain.Proofs.Json.Nesting
import ActionChain.Proofs.Restart
import ActionChain.Proofs.Time.Spelled

/-!
# Profiles

What is left of the user cache when it is written to its file and loaded again.

The file spells everything on its own. A user id is a key that is read back as
the same id, names and counts are scalars, and an instant is read back from its
text, so what can be lost of a record is its free-form data. That is an ordered
value, nested no deeper than the reader allowed when it was loaded, because
recording a command leaves the data of every user alone and starts new users
with none. It stands as deep in the new file as it stood in the old one. So it
is read back as it was if its numbers are, and integers always are.

What remains are floating-point numbers. A cache comes back exactly if every
one of them is what its characters are read as (`UserCache.survives`).

## Main definitions

* `UserCache.Remembered`: caches that loading and recording lead to.
* `UserRecord.reread?`, `UserCache.reread?`: what is read back.
* `UserRecord.Sound`: data in order and not nested too deep.

## Theorems

* `UserCache.readId?_written`: ids are read back from their keys.
* `UserRecord.read?_written`, `UserCache.read?_written`: reading back.
* `UserCache.Remembered.sound`: the data of every record is sound.
* `Storage.loadUsers_flushUsers`: what is loaded after writing.
* `UserCache.survives`: which caches come back.
-/

namespace ActionChain

/-! ## Scalars -/

theorem Json.word?_reread (n : UInt64) (depth : Nat) :
    Source.word? ((Json.word n).reread depth) = some n := by
  have hlt : (n.toNat : Int) < (UInt64.size : Int) := Int.ofNat_lt.2 n.toNat_lt_size
  rw [Json.word, Json.reread, Number.source_int, Source.word?, Source.natural?,
    if_pos ⟨Int.natCast_nonneg _, hlt⟩, Int.toNat_natCast, Option.map_some, UInt64.ofNat_toNat]

/-- An instant is read back, and so is the absence of one. -/
theorem UserRecord.readInstant?_reread (time : Option Instant) (depth : Nat) :
    Source.nullable? readInstant?
      (((time.map fun t => Json.string t.toText).getD .null).reread depth) = some time := by
  cases time with
  | none => rfl
  | some t =>
      simp only [Option.map_some, Option.getD_some, Json.reread, Source.nullable?, readInstant?,
        Source.text?, Option.bind_some, Instant.parse?_toText]

theorem Source.members?_eq_some_iff {s : Source} {members : List (String × Json)} :
    s.members? = some members ↔ s.value? = some (.object members) := by
  unfold members?
  rcases s.value? with _ | j
  · simp
  · cases j <;> simp

/-! ## Ids -/

theorem Piece.ofChar_of_isDigit {c : Char} (h : c.isDigit = true) : ofChar c = .char c := by
  have hlow : ¬ c.toNat < 0x20 := by
    have hrange := toNat_of_isDigit h
    omega
  have hspecial : ¬ (c = '"' ∨ c = '\\' ∨ c = '\n' ∨ c = '\r' ∨ c = '\t' ∨ c = '\x08' ∨
      c = '\x0c') := by
    rintro (hc | hc | hc | hc | hc | hc | hc) <;>
      exact Scan.ne_of_isDigit h (by decide) hc
  rw [ofChar, if_neg hspecial, if_neg hlow]

/-- A spelled id is read back from its key. -/
theorem UserCache.readId?_written (id : UInt64) : readId? (Key.written (toString id)) = some id := by
  have hdigits : (toString id).toList = Nat.toDigits 10 id.toNat := Nat.toList_repr
  have hplain : (Key.written (toString id)).escaped = false := by
    rw [Key.written, hdigits, List.any_map, List.any_eq_false]
    intro c hc
    rw [Function.comp_apply, Piece.ofChar_of_isDigit (isDigit_of_mem_digits c hc)]
    exact Bool.false_ne_true
  have hall : (Nat.toDigits 10 id.toNat).all Char.isDigit = true :=
    List.all_eq_true.2 isDigit_of_mem_digits
  have hempty : (Nat.toDigits 10 id.toNat).isEmpty = false :=
    List.isEmpty_eq_false_iff.2 Nat.toDigits_ne_nil
  have hzero : ((Nat.toDigits 10 id.toNat).head? == some '0' &&
      (Nat.toDigits 10 id.toNat).length != 1) = false := by
    rw [Bool.and_eq_false_iff, beq_eq_false_iff_ne, bne_eq_false_iff_eq]
    by_cases hhead : (Nat.toDigits 10 id.toNat).head? = some '0'
    · exact .inr (Decimal.of_head?_toDigits hhead).2
    · exact .inl hhead
  have hkey : (Key.written (toString id)).text = some (toString id) := rfl
  simp only [readId?, hkey, Option.bind_eq_bind, Option.bind_some, hdigits, hplain, hall, hempty,
    hzero, Bool.not_true, Bool.or_false, Bool.false_eq_true, if_false, digitsValue_toDigits,
    if_pos id.toNat_lt_size, UInt64.ofNat_toNat]

/-! ## Records -/

namespace UserRecord

/-- What a record is read back as, if it is, with its data `depth` levels from
where the reader gives up. -/
def reread? (depth : Nat) (r : UserRecord) : Option UserRecord :=
  (Source.members? ((Json.object r.data).reread depth)).map fun data => { r with data }

/-- A record is read back from its written form, whatever becomes of its data. -/
theorem read?_written (r : UserRecord) (depth : Nat) :
    read? (r.written.reread (depth + 1)) = r.reread? depth := by
  -- No field is written twice, and each is found under its name.
  have honce : ∀ name ∈ ["name", "command_count", "last_command_at", "data"],
      r.written.members.countP (·.1 == name) ≤ 1 := by
    intro name hname
    simp only [List.mem_cons, List.not_mem_nil, or_false] at hname
    rcases hname with rfl | rfl | rfl | rfl <;> rfl
  have hname : Entries.find? "name" r.written.members = some (.string r.name) := rfl
  have hcount : Entries.find? "command_count" r.written.members = some (.word r.commandCount) :=
    rfl
  have htime : Entries.find? "last_command_at" r.written.members =
      some ((r.lastCommandAt.map fun t => Json.string t.toText).getD .null) := rfl
  have hdata : Entries.find? "data" r.written.members = some (.object r.data) := rfl
  have hobject : r.written = .object r.written.members := rfl
  have htext : Source.text? ((Json.string r.name).reread depth) = some r.name := by
    rw [Json.reread, Source.text?]
  rw [hobject, read?, record?_reread honce]
  simp only [Option.bind_eq_bind, Option.bind_some, hname, hcount, htime, hdata, Option.map_some]
  rw [Source.required, Option.bind_some, htext, Option.bind_some, Source.withDefault,
    Json.word?_reread, Option.bind_some, Source.withDefault, readInstant?_reread, Option.bind_some,
    Source.withDefault, reread?]
  cases Source.members? ((Json.object r.data).reread depth) <;> rfl

/-- Data in ascending order, nested no deeper than `depth`. -/
structure Sound (depth : Nat) (r : UserRecord) : Prop where
  ordered : (Json.object r.data).Ordered
  fits : (Json.object r.data).Fits depth

/-- A record with sound data is read back as it was exactly if the numbers in
its data are. -/
theorem reread?_eq_self_iff {r : UserRecord} {depth : Nat} (h : r.Sound depth) :
    r.reread? depth = some r ↔ ∀ n ∈ (Json.object r.data).numbers, n.Durable := by
  rw [← Json.value?_reread_iff h.fits h.ordered, ← Source.members?_eq_some_iff, reread?,
    Option.map_eq_some_iff]
  constructor
  · rintro ⟨data, hdata, hsame⟩
    rw [hdata, ← hsame]
  · exact fun hdata => ⟨r.data, hdata, rfl⟩

/-- A record that was read from a shallow source has sound data. -/
theorem sound_of_read? {source : Source} {r : UserRecord} {depth : Nat}
    (hsource : source.Shallow (depth + 1)) (hdepth : 0 < depth) (h : read? source = some r) :
    r.Sound depth := by
  simp only [read?, Option.bind_eq_bind, Option.bind_eq_some_iff] at h
  rcases h with ⟨field, hfield, name, -, commandCount, -, lastCommandAt, -, data, hdata, h⟩
  cases h
  cases hfound : field "data" with
  | none =>
      rw [hfound] at hdata
      cases hdata
      exact ⟨⟨List.Pairwise.nil, trivial⟩, hdepth, trivial⟩
  | some s =>
      rw [hfound] at hdata
      have hvalue := Source.members?_eq_some_iff.1 hdata
      have hshallow := Source.shallow_of_record? hsource hfield hfound
      exact ⟨Source.ordered_of_value? hvalue, Source.fits_of_value? hshallow hvalue⟩

theorem sound_blank {depth : Nat} (hdepth : 0 < depth) : blank.Sound depth :=
  ⟨⟨List.Pairwise.nil, trivial⟩, hdepth, trivial⟩

end UserRecord

/-! ## Caches -/

namespace UserCache

/-- The entry that a member of the file stands for. -/
def readMember? (m : Key × Source) : Option (UInt64 × UserRecord) :=
  (readId? m.1).bind fun id => (UserRecord.read? m.2).bind fun r => some (id, r)

theorem read?_object (members : List (Key × Source)) :
    read? (.object members) =
      (members.mapM readMember?).bind fun entries => some ⟨Dict.ofList entries⟩ := rfl

/-- An entry with its record read back, if it is. -/
def rereadRecord? (depth : Nat) (e : UInt64 × UserRecord) : Option (UInt64 × UserRecord) :=
  (e.2.reread? depth).map fun r => (e.1, r)

/-- What a cache is read back as, if it is: record by record. -/
def reread? (depth : Nat) (c : UserCache) : Option UserCache :=
  (c.records.entries.mapM (rereadRecord? depth)).map fun entries => ⟨Dict.ofList entries⟩

/-- A cache is read back from its written form record by record. -/
theorem read?_written (c : UserCache) (depth : Nat) :
    read? (c.written.reread (depth + 2)) = c.reread? depth := by
  have hentries : ∀ entries : List (UInt64 × UserRecord),
      (Json.rereadMembers (depth + 1) (entries.map fun e => (toString e.1, e.2.written))).mapM
        readMember? = entries.mapM (rereadRecord? depth) := by
    intro entries
    induction entries with
    | nil => rfl
    | cons e rest ih =>
        have hmember : readMember? (Key.written (toString e.1), e.2.written.reread (depth + 1)) =
            rereadRecord? depth e := by
          rw [readMember?, readId?_written, UserRecord.read?_written, Option.bind_some,
            rereadRecord?, Option.map_eq_bind]
          rfl
        rw [List.map_cons, Json.rereadMembers, List.mapM_cons, List.mapM_cons, ih, hmember]
  rw [written, Json.reread, Scan.nested, if_neg (Nat.succ_ne_zero _), read?_object,
    show depth + 2 - 1 = depth + 1 from rfl, hentries, reread?, Option.map_eq_bind]
  rfl

/-- A cache is read back as it was exactly if each of its records is. -/
theorem reread?_eq_self_iff {c : UserCache} {depth : Nat} :
    c.reread? depth = some c ↔ ∀ r ∈ c.records.values, r.reread? depth = some r := by
  have hkept : c.records.entries.mapM (rereadRecord? depth) = some c.records.entries ↔
      ∀ r ∈ c.records.values, r.reread? depth = some r := by
    rw [mapM_eq_some_iff, List.forall₂_same, Dict.values, List.forall_mem_map]
    refine forall₂_congr fun e he => ?_
    simp only [rereadRecord?, Option.map_eq_some_iff, Prod.ext_iff, true_and, exists_eq_right]
  rw [← hkept, reread?, Option.map_eq_some_iff]
  constructor
  · rintro ⟨entries, hentries, hsame⟩
    -- The ids come back in order, so they are put where they stood.
    have hkeys : c.records.entries.map Prod.fst = entries.map Prod.fst := by
      rw [← List.forall₂_eq_eq_eq, List.forall₂_map_left_iff, List.forall₂_map_right_iff]
      refine (mapM_eq_some_iff.1 hentries).imp fun e e' he => ?_
      rcases Option.map_eq_some_iff.1 he with ⟨r, -, rfl⟩
      rfl
    have hascending : Entries.Ascending entries := by
      rw [Json.ascending_iff_keys, ← hkeys, ← Json.ascending_iff_keys]
      exact c.records.ascending
    rw [hentries, ← hsame]
    exact congrArg some (Entries.ofList_of_ascending hascending).symm
  · intro hentries
    refine ⟨_, hentries, ?_⟩
    rw [show Dict.ofList c.records.entries = c.records from
      Dict.ext_entries (Entries.ofList_of_ascending c.records.ascending)]

/-- A cache read from a shallow source has sound data. -/
theorem sound_of_read? {source : Source} {c : UserCache} {depth : Nat}
    (hsource : source.Shallow (depth + 2)) (hdepth : 0 < depth) (h : read? source = some c) :
    ∀ r ∈ c.records.values, r.Sound depth := by
  cases source with
  | object members =>
      rw [read?_object] at h
      rcases Option.bind_eq_some_iff.1 h with ⟨entries, hentries, h⟩
      cases h
      intro r hr
      rcases List.mem_map.1 hr with ⟨e, he, rfl⟩
      -- Each record of the cache is that of some member.
      rcases exists_of_mem_mapM hentries (Entries.mem_of_mem_ofList he) with ⟨m, hm, hfound⟩
      rcases Option.bind_eq_some_iff.1 hfound with ⟨id, -, hfound⟩
      rcases Option.bind_eq_some_iff.1 hfound with ⟨r, hread, hfound⟩
      cases hfound
      exact UserRecord.sound_of_read? (Source.shallowMembers_iff.1 hsource.2 m hm) hdepth hread
  | _ => cases h

/-- The caches that loading some file and then recording commands lead to. -/
inductive Remembered : UserCache → Prop where
  | loaded (s : Storage) : Remembered s.loadUsers
  | recorded {c : UserCache} (h : Remembered c) (user : User) (time : Instant) :
    Remembered (c.recordCommand user time)

/-- How deep the data of a user may be nested: two levels less than a file, for
the cache and the record around it. -/
def dataDepth : Nat := Source.maxDepth - 2

/-- However a cache came about, its data is in order and not nested too deep. -/
theorem Remembered.sound {c : UserCache} (h : c.Remembered) :
    ∀ r ∈ c.records.values, r.Sound dataDepth := by
  induction h with
  | loaded s =>
      cases hfile : s.decode? .users read? with
      | none =>
          rw [Storage.loadUsers, hfile]
          exact fun r hr => absurd hr List.not_mem_nil
      | some c =>
          rw [Storage.loadUsers, hfile, Option.getD_some]
          rw [Storage.decode?] at hfile
          split at hfile
          · rcases Option.bind_eq_some_iff.1 hfile with ⟨source, hsource, hc⟩
            exact sound_of_read? (Source.shallow_of_parse? hsource) (by decide) hc
          · cases hfile
  | @recorded c _ user time ih =>
      intro r hr
      rcases List.mem_map.1 hr with ⟨e, he, rfl⟩
      rcases Entries.mem_insert he with rfl | he
      · -- Of the old record only the data matters, and an unknown user has none.
        cases hold : c.get? user.id with
        | none =>
            have hblank := UserRecord.sound_blank (show 0 < dataDepth by decide)
            exact ⟨hblank.ordered, hblank.fits⟩
        | some old =>
            have hsound := ih old
              (List.mem_map.2 ⟨_, Entries.mem_of_find?_eq_some hold, rfl⟩)
            exact ⟨hsound.ordered, hsound.fits⟩
      · exact ih e.2 (List.mem_map_of_mem he)

end UserCache

/-! ## Files -/

/-- What is loaded after a cache was written. -/
theorem Storage.loadUsers_flushUsers {s : Storage} {c : UserCache}
    (h : (s.flushUsers c).2 = none) :
    (s.flushUsers c).1.loadUsers = (c.reread? UserCache.dataDepth).getD .empty := by
  rw [flushUsers] at h ⊢
  rw [loadUsers, decode?, read_write (attempt_eq_none h)]
  simp only [Source.parse?_toPrettyText, Option.bind_some]
  exact congrArg (Option.getD · .empty) (c.read?_written UserCache.dataDepth)

/-- Which caches come back. Whatever file a cache was loaded from and however
many commands were recorded since, once it is written it is loaded as it was
exactly if every floating-point number in the data of its users is what its
characters are read as. -/
theorem UserCache.survives {c : UserCache} (h : c.Remembered) {s : Storage}
    (hflush : (s.flushUsers c).2 = none) :
    (s.flushUsers c).1.loadUsers = c ↔
      ∀ r ∈ c.records.values, ∀ x, .float x ∈ (Json.object r.data).numbers →
        (Number.float x).Durable := by
  have hrecords : c.reread? dataDepth = some c ↔
      ∀ r ∈ c.records.values, ∀ x, .float x ∈ (Json.object r.data).numbers →
        (Number.float x).Durable := by
    rw [reread?_eq_self_iff]
    refine forall₂_congr fun r hr => ?_
    rw [UserRecord.reread?_eq_self_iff (h.sound r hr)]
    constructor
    · exact fun hnumbers x hx => hnumbers _ hx
    · intro hfloats n hn
      cases n with
      | int i hi => exact Number.durable_int i hi
      | float x => exact hfloats x hn
  rw [← hrecords, Storage.loadUsers_flushUsers hflush]
  constructor
  · intro hsame
    cases hread : c.reread? dataDepth with
    | some c' =>
        rw [hread] at hsame
        exact congrArg some hsame
    | none =>
        -- A cache without records is read back, so this one has some.
        rw [hread] at hsame
        rw [← hsame] at hread
        cases hread
  · intro hread
    rw [hread, Option.getD_some]

/-- A user file with the greatest count and data of its own. -/
def clubFile : Storage :=
  Storage.empty.put .users (.file (Symbols.ofString
    ("\x7b\"7\":\x7b\"name\":\"\\u00eb\",\"command_count\":18446744073709551615," ++
      "\"data\":\x7b\"n\":[1.5]\x7d\x7d\x7d")))

/-- A moment of a leap second, to the nanosecond. -/
def leapMoment : Instant := ⟨⟨2016, 12, 31, by decide⟩, 86399, 1234567890, by decide⟩

/-- The cache of that file after its user, under another name, and the user with
the greatest id ran a command each. -/
def club : UserCache :=
  (clubFile.loadUsers.recordCommand ⟨7, "zoë \"\\\t\n\x00", false⟩ leapMoment).recordCommand
    ⟨18446744073709551615, "", true⟩ leapMoment

/-- The cache comes back, with the one floating-point number it holds. -/
theorem UserCache.survives_club :
    club.Remembered ∧ (clubFile.flushUsers club).2 = none ∧
    (club.records.values.map fun r => (r.commandCount, (Json.object r.data).numbers)) =
      [(18446744073709551615,
        [.float ⟨false, 1023 * Binary64.binade + Binary64.binade / 2, by decide⟩]), (1, [])] ∧
    (clubFile.flushUsers club).1.loadUsers = club := by
  have hclub : club.Remembered := ((Remembered.loaded clubFile).recorded _ _).recorded _ _
  have hflush : (clubFile.flushUsers club).2 = none := by decide +kernel
  have hvalues : (club.records.values.map fun r => (r.commandCount, (Json.object r.data).numbers)) =
      [(18446744073709551615,
        [.float ⟨false, 1023 * Binary64.binade + Binary64.binade / 2, by decide⟩]), (1, [])] := by
    decide +kernel
  refine ⟨hclub, hflush, hvalues, (survives hclub hflush).2 ?_⟩
  intro r hr x hx
  have hmem := List.mem_map_of_mem (f := fun r => (r.commandCount, (Json.object r.data).numbers)) hr
  rw [hvalues, List.mem_cons, List.mem_singleton, Prod.mk.injEq, Prod.mk.injEq] at hmem
  rcases hmem with ⟨-, hnumbers⟩ | ⟨-, hnumbers⟩
  · rw [hnumbers, List.mem_singleton] at hx
    rw [hx]
    decide +kernel
  · rw [hnumbers] at hx
    exact absurd hx List.not_mem_nil

end ActionChain
