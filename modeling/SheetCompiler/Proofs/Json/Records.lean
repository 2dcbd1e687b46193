import SheetCompiler.Proofs.Json.Entries
import SheetCompiler.Proofs.Json.Syntax

/-!
# Values that survive their JSON form

A value survives a writer and a reader if what is written for it can be a text, and is read as the
value (`Survives`). Then the texts of the value are read as it (`Survives.parse_prettyText`). Texts
and numbers survive, and so do lists, maps and records whose parts do: a map has its keys in order,
and a record may leave out fields (`present`) as long as no field is there twice
(`record?_present`).
-/

namespace SheetCompiler.Json

variable {α β : Type}

/-- What is written for the value can be a text, and is read as the value. -/
structure Survives (write : α → Json) (read : Json → Option α) (x : α) : Prop where
  proper : (write x).Proper
  read_write : read (write x) = some x

namespace Survives

variable {write : α → Json} {read : Json → Option α} {x : α}

/-- A value that survives is read from its text with line breaks. -/
theorem parse_prettyText (survives : Survives write read x) :
    (parse (write x).prettyText).bind read = some x := by
  rw [Json.parse_prettyText survives.proper, Option.bind_some, survives.read_write]

/-- So it is from the text without them. -/
theorem parse_compactText (survives : Survives write read x) :
    (parse (write x).compactText).bind read = some x := by
  rw [Json.parse_compactText survives.proper, Option.bind_some, survives.read_write]

end Survives

/-- A list is read back if its items are. -/
theorem mapM_map_eq_some {f : α → β} {g : β → Option α} {xs : List α}
    (all : ∀ x ∈ xs, g (f x) = some x) : (xs.map f).mapM g = some xs := by
  induction xs with
  | nil => rfl
  | cons x xs ih =>
    obtain ⟨first, others⟩ := List.forall_mem_cons.1 all
    rw [List.map_cons, List.mapM_cons, first, ih others]
    rfl

theorem readKeys_escape (members : List (String × Json)) :
    readKeys (members.map fun (key, j) => (escape key.toList, j)) = some members := by
  refine mapM_map_eq_some ?_
  rintro ⟨key, j⟩ -
  simp only [unescape_escape, Option.map_some, String.ofList_toList]

/-! ### Scalars, lists and maps -/

theorem survives_bool (b : Bool) : Survives .bool bool? b := ⟨.bool b, rfl⟩

theorem survives_text (s : String) : Survives ofText text? s := ⟨.string _, text?_ofText s⟩

theorem survives_nat {n : Nat} (fits : n < 2 ^ 64) : Survives ofNat natural? n :=
  ⟨.number (isNumber_toDigits n), natural?_ofNat fits⟩

section

variable {write : α → Json} {read : Json → Option α}

/-- A list survives if its items do. -/
theorem survives_list {xs : List α} (all : ∀ x ∈ xs, Survives write read x) :
    Survives (fun xs => .array (xs.map write)) (list? read) xs :=
  ⟨.array (List.forall_mem_map.2 fun x mem => (all x mem).proper),
    mapM_map_eq_some fun x mem => (all x mem).read_write⟩

/-- Entries in the order of their keys come out in this order. -/
theorem foldl_insertKey_of_sorted {entries : List (String × α)}
    (sorted : entries.Pairwise (·.1 < ·.1)) :
    entries.foldl (fun m entry => insertKey entry.1 entry.2 m) [] = entries := by
  refine eq_of_perm (sorted_foldl_insertKey .nil) sorted (perm_foldl_insertKey (m := []) ?_)
  rw [List.nil_append]
  refine List.pairwise_map.2 (sorted.imp ?_)
  rintro entry other less same
  exact String.lt_irrefl entry.1 (same ▸ less)

/-- A map survives if its values do and its keys are in order. -/
theorem survives_map {entries : List (String × α)} (sorted : entries.Pairwise (·.1 < ·.1))
    (all : ∀ entry ∈ entries, Survives write read entry.2) :
    Survives (fun entries => ofMembers (entries.map fun entry => (entry.1, write entry.2)))
      (map? read) entries := by
  refine ⟨.object (List.forall_mem_map.2 fun entry mem => (all entry mem).proper), ?_⟩
  have values : (entries.map fun entry => (entry.1, write entry.2)).mapM
      (fun m => (read m.2).map fun v => (m.1, v)) = some entries :=
    mapM_map_eq_some fun entry mem => by rw [(all entry mem).read_write]; rfl
  rw [ofMembers, map?, readKeys_escape]
  simp only [Option.bind_eq_bind, Option.bind_some, values, foldl_insertKey_of_sorted sorted,
    Option.pure_def]

end

/-! ### Records -/

/-- The members of a record, without the fields that are left out. -/
def present : List String → List (Option Json) → List (String × Json)
  | field :: fields, some j :: values => (field, j) :: present fields values
  | _ :: fields, none :: values => present fields values
  | _, _ => []

/-- A member of a record is one of its fields, with its value. -/
theorem mem_of_mem_present {fields : List String} {values : List (Option Json)} {m : String × Json}
    (mem : m ∈ present fields values) : m.1 ∈ fields ∧ some m.2 ∈ values := by
  fun_induction present fields values with
  | case1 field fields j values ih =>
    rcases List.mem_cons.1 mem with rfl | mem
    · exact ⟨List.mem_cons_self, List.mem_cons_self⟩
    · exact (ih mem).imp (List.mem_cons_of_mem _) (List.mem_cons_of_mem _)
  | case2 field fields values ih =>
    exact (ih mem).imp (List.mem_cons_of_mem _) (List.mem_cons_of_mem _)
  | case3 => cases mem

/-- Members with other keys in front do not count. -/
theorem onlyMember_append {key : String} {before : List (String × Json)}
    (other : ∀ m ∈ before, m.1 ≠ key) (members : List (String × Json)) :
    onlyMember key (before ++ members) = onlyMember key members := by
  have none : before.filter (·.1 = key) = [] := by
    simpa [List.filter_eq_nil_iff] using other
  rw [onlyMember, List.filter_append, none, List.nil_append, onlyMember]

theorem onlyMember_eq_none {key : String} {members : List (String × Json)}
    (other : ∀ m ∈ members, m.1 ≠ key) : onlyMember key members = some none := by
  rw [← List.append_nil members, onlyMember_append other]
  rfl

/-- The fields are found behind members with other keys. -/
theorem mapM_onlyMember_present {fields : List String} {values : List (Option Json)}
    (distinct : fields.Nodup) (same : fields.length = values.length)
    {before : List (String × Json)} (other : ∀ m ∈ before, m.1 ∉ fields) :
    fields.mapM (fun field => onlyMember field (before ++ present fields values)) = some values := by
  induction fields generalizing values before with
  | nil =>
    rw [List.eq_nil_of_length_eq_zero same.symm]
    rfl
  | cons field fields ih =>
    obtain _ | ⟨value, values⟩ := values
    · cases same
    obtain ⟨new, distinct⟩ := List.nodup_cons.1 distinct
    have apart : ∀ m ∈ before, m.1 ≠ field := fun m mem => List.ne_of_not_mem_cons (other m mem)
    have later : ∀ m ∈ present fields values, m.1 ≠ field := by
      rintro m mem rfl
      exact new (mem_of_mem_present mem).1
    have other : ∀ m ∈ before, m.1 ∉ fields := fun m mem => List.not_mem_of_not_mem_cons (other m mem)
    have sameRest : fields.length = values.length := Nat.succ.inj same
    rw [List.mapM_cons, onlyMember_append apart]
    cases value with
    | none =>
      rw [present, onlyMember_eq_none later, ih distinct sameRest other]
      rfl
    | some j =>
      have found : onlyMember field ((field, j) :: present fields values) = some (some j) := by
        have none : (present fields values).filter (·.1 = field) = [] := by
          simpa [List.filter_eq_nil_iff] using fun a b mem => later (a, b) mem
        rw [onlyMember, List.filter_cons_of_pos (by simp), none]
      -- The member that was found joins those in front of the other fields.
      rw [present, found, ← List.singleton_append, ← List.append_assoc, ih distinct sameRest]
      · rfl
      · intro m mem
        rcases List.mem_append.1 mem with mem | mem
        · exact other m mem
        · rw [List.mem_singleton.1 mem]
          exact new

/-- The fields of a record are found where they were put. -/
theorem record?_present {fields : List String} {values : List (Option Json)}
    (distinct : fields.Nodup) (same : fields.length = values.length) :
    record? fields (ofMembers (present fields values)) = some values := by
  rw [ofMembers, record?, readKeys_escape]
  exact mapM_onlyMember_present distinct same fun _ mem => absurd mem List.not_mem_nil

/-- A record survives if its fields can be texts and are read as the value. -/
theorem survives_record {write : α → Json} {read : Json → Option α} {x : α} {fields : List String}
    {values : List (Option Json)} (written : write x = ofMembers (present fields values))
    (proper : ∀ value ∈ values, ∀ j ∈ value, j.Proper)
    (read_present : read (ofMembers (present fields values)) = some x) : Survives write read x := by
  constructor
  · rw [written]
    exact .object fun m mem => proper _ (mem_of_mem_present mem).2 m.2 rfl
  · rw [written, read_present]

theorem Survives.proper_field {write : α → Json} {read : Json → Option α} {x : α}
    (survives : Survives write read x) : ∀ j ∈ some (write x), j.Proper :=
  fun _ mem => Option.some.inj mem ▸ survives.proper

theorem proper_optionalText (text : Option String) : ∀ j ∈ text.map ofText, j.Proper := by
  cases text with
  | none => exact fun _ mem => (Option.not_mem_none _ mem).elim
  | some s => exact (survives_text s).proper_field

/-- A text that is left out is read as left out. -/
theorem read_optionalText (text : Option String) :
    withDefault (optional? text?) none (text.map ofText) = some text := by
  cases text with
  | none => rfl
  | some s =>
    have read : (ofText s).text?.map some = some (some s) := by rw [text?_ofText, Option.map_some]
    exact read

end SheetCompiler.Json
