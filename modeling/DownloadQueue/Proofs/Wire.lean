import Mathlib.Data.List.Nodup
import DownloadQueue.Proofs.Json.Compact
import DownloadQueue.Proofs.Json.Magnitude
import DownloadQueue.Proofs.QueueFile
import DownloadQueue.Wire.Event

/-!
# What is sent can be read

Commands, their outcomes, events, statuses and items are each written by one rule from the names of
their variants and fields. Whatever is written by these rules without blanks is read as the value
that it was written for.
-/

namespace DownloadQueue

namespace Json

def snakeCase (name : String) : String :=
  match name.toList with
  | [] => ""
  | first :: rest =>
    String.ofList (first.toLower :: rest.flatMap fun c => if c.isUpper then ['_', c.toLower] else [c])

def adjacent (tag content name : String) (held : Option Json) : Json :=
  .record ((tag, .ofText (snakeCase name)) :: (held.map fun value => (content, value)).toList)

def internal (tag name : String) (fields : List (String × Json)) : Json :=
  .record ((tag, .ofText (snakeCase name)) :: fields)

/-- A value that is sent on a line of its own is received as it was. -/
def Faithful {α : Type} (encode : α → Json) (decode : Json → Option α) : Prop :=
  ∀ value, (parse? (encodeUtf8 (encode value).compact)).bind decode = some value

theorem faithful {α : Type} {encode : α → Json} {decode : Json → Option α}
    (hplain : ∀ value, (encode value).Plain) (hdecode : ∀ value, decode (encode value) = some value) :
    Faithful encode decode := by
  intro value
  rw [parse?_compact (hplain value), Option.bind_some, hdecode value]

theorem plain_ofText (text : String) : (ofText text).Plain :=
  ⟨text, rfl⟩

theorem plain_ofNat (n : Nat) : (ofNat n).Plain :=
  ⟨n, rfl⟩

theorem plain_record {members : List (String × Json)} (h : ∀ member ∈ members, member.2.Plain) :
    (record members).Plain := by
  induction members with
  | nil => trivial
  | cons member members ih =>
    exact ⟨⟨member.1, rfl⟩, h member List.mem_cons_self,
      ih fun other hmem => h other (List.mem_cons_of_mem _ hmem)⟩

theorem keys?_record (members : List (String × Json)) :
    keys? (members.map fun (key, value) => (some key, value)) = some (members.map Prod.fst) := by
  induction members with
  | nil => rfl
  | cons member members ih =>
    rw [List.map_cons, keys?, ih]
    rfl

/-- A record whose keys differ gives every field back by its key. -/
theorem lookup?_record {members : List (String × Json)} (hnodup : (members.map Prod.fst).Nodup)
    {member : String × Json} (hmem : member ∈ members) :
    lookup? member.1 (members.map fun (key, value) => (some key, value)) = some member.2 := by
  induction members with
  | nil => cases hmem
  | cons first members ih =>
    rw [List.map_cons, List.nodup_cons] at hnodup
    rw [List.map_cons, lookup?]
    rcases List.mem_cons.mp hmem with rfl | hrest
    · exact if_pos rfl
    · have hne : first.1 ≠ member.1 := fun heq => hnodup.1 (heq ▸ List.mem_map_of_mem hrest)
      rw [if_neg fun heq => hne (Option.some.inj heq), ih hnodup.2 hrest]

@[simp] theorem Slot.required_given {α : Type} (decode : Json → Option α) (value : Json) :
    Slot.required decode (.given value) = decode value :=
  rfl

@[simp] theorem Slot.optional_given {α : Type} (decode : Json → Option α) (value : Json) :
    Slot.optional decode (.given value) = nullable decode value :=
  rfl

/-- A record with just the fields that are asked for says what they are. -/
theorem slots?_record {names : List String} {members : List (String × Json)}
    (hnames : members.map Prod.fst = names) (hnodup : names.Nodup) :
    (record members).slots? names = some (members.map fun member => .given member.2) := by
  subst hnames
  have hcount : (members.map Prod.fst).all
      (fun name => decide ((members.map Prod.fst).count name ≤ 1)) = true :=
    List.all_eq_true.mpr fun name _ => decide_eq_true (List.nodup_iff_count_le_one.mp hnodup name)
  rw [record, slots?, memberSlots?, keys?_record]
  refine (if_pos hcount).trans (congrArg some ?_)
  rw [List.map_map]
  refine List.map_congr_left fun member hmem => ?_
  rw [Function.comp_apply, lookup?_record hnodup hmem]

theorem without_eq_self {key : String} {members : List (String × Json)}
    (h : key ∉ members.map Prod.fst) :
    without key (members.map fun (key, value) => (some key, value)) =
      members.map fun (key, value) => (some key, value) := by
  induction members with
  | nil => rfl
  | cons member members ih =>
    rw [List.map_cons, List.mem_cons, not_or] at h
    rw [List.map_cons, without, if_neg fun heq => h.1 (Option.some.inj heq).symm, ih h.2]

inductive Flat : Json → Prop
  | null : Flat .null
  | text (text : String) : Flat (.ofText text)
  | count (n : UInt64) : Flat (.ofNat n.toNat)

theorem Flat.readable {value : Json} (h : Flat value) (depth : Nat) :
    Json.readable depth value = true := by
  cases h with
  | null => rw [Json.readable]
  | text text =>
    rw [ofText, Json.readable]
    rfl
  | count n =>
    rw [ofNat, Json.readable]
    exact Numeral.isSome_toFloat?_ofNat n.toNat_lt

theorem Flat.plain {value : Json} (h : Flat value) : value.Plain := by
  cases h with
  | null => trivial
  | text text => exact plain_ofText text
  | count n => exact plain_ofNat n.toNat

theorem readableMembers_record {members : List (String × Json)}
    (h : ∀ member ∈ members, Flat member.2) (depth : Nat) :
    readableMembers depth (members.map fun (key, value) => (some key, value)) = true := by
  induction members with
  | nil => rw [List.map_nil, readableMembers]
  | cons member members ih =>
    rw [List.map_cons, readableMembers, (h member List.mem_cons_self).readable depth,
      ih fun other hmem => h other (List.mem_cons_of_mem _ hmem)]
    rfl

theorem tagged?_object {key name : String} {keys : List String}
    {members : List (Option String × Json)} (hkeys : keys? members = some keys)
    (hlookup : lookup? key members = some (ofText name)) (hcount : keys.count key = 1)
    (hreadable : readableMembers (nestingLimit - 1) (without key members) = true) :
    (Json.object members).tagged? key = some ⟨name, .object (without key members)⟩ := by
  rw [tagged?, hkeys, hlookup]
  exact if_pos ⟨hcount, hreadable⟩

/-- A variant with its name inside is taken apart into its name and its fields. -/
theorem tagged?_internal {tag name : String} {fields : List (String × Json)}
    (htag : tag ∉ fields.map Prod.fst) (hflat : ∀ field ∈ fields, Flat field.2) :
    (internal tag name fields).tagged? tag = some ⟨snakeCase name, .record fields⟩ := by
  have hkeys := keys?_record ((tag, ofText (snakeCase name)) :: fields)
  have hwithout : without tag ((some tag, ofText (snakeCase name)) ::
      fields.map fun (key, value) => (some key, value)) =
      fields.map fun (key, value) => (some key, value) := by
    rw [without, if_pos rfl, without_eq_self htag]
  have hcount : (tag :: fields.map Prod.fst).count tag = 1 := by
    rw [List.count_cons_self, List.count_eq_zero.mpr htag]
  have htagged := tagged?_object hkeys (if_pos rfl) hcount
    (by rw [List.map_cons, hwithout, readableMembers_record hflat])
  rw [List.map_cons, hwithout] at htagged
  exact htagged

theorem plain_adjacent {tag content name : String} {held : Option Json}
    (hheld : ∀ value ∈ held, value.Plain) : (adjacent tag content name held).Plain := by
  refine plain_record fun member hmem => ?_
  rcases List.mem_cons.mp hmem with rfl | hmem
  · exact plain_ofText _
  · cases held with
    | none => cases hmem
    | some value =>
      rw [List.mem_singleton.mp hmem]
      exact hheld value rfl

theorem plain_internal {tag name : String} {fields : List (String × Json)}
    (hflat : ∀ field ∈ fields, Flat field.2) : (internal tag name fields).Plain := by
  refine plain_record fun member hmem => ?_
  rcases List.mem_cons.mp hmem with rfl | hmem
  · exact plain_ofText _
  · exact (hflat member hmem).plain

theorem flat_ofOption (total : Option UInt64) : Flat (.ofOption countJson total) := by
  cases total with
  | none => exact .null
  | some n => exact .count n

end Json

def Status.declared : Status → String
  | queued => "Queued"
  | downloading => "Downloading"
  | paused => "Paused"
  | finished => "Finished"
  | failed => "Failed"
  | deleted => "Deleted"
  | alreadyDownloaded => "AlreadyDownloaded"

def Command.declared : Command → String × Option Json
  | pause id => ("Pause", some id.toJson)
  | resume id => ("Resume", some id.toJson)
  | retry id => ("Retry", some id.toJson)
  | cancel id => ("Cancel", some id.toJson)
  | delete id => ("Delete", some id.toJson)
  | deleteFinished => ("DeleteFinished", none)
  | purge => ("Purge", none)
  | pauseAll => ("PauseAll", none)
  | resumeAll => ("ResumeAll", none)
  | setMaxConcurrent limit => ("SetMaxConcurrent", some (countJson limit))
  | setAutoDownload enabled => ("SetAutoDownload", some (.bool enabled))

def Outcome.declared : Outcome → String × List (String × Json)
  | applied => ("Applied", [])
  | unchanged => ("Unchanged", [])
  | superseded status => ("Superseded", [("status", status.toJson)])
  | removed count => ("Removed", [("count", countJson count)])

def Event.declared : Event → String × List (String × Json)
  | queued id url => ("Queued", [("id", id.toJson), ("url", .ofText url)])
  | started id offset => ("Started", [("id", id.toJson), ("resume_offset", countJson offset)])
  | progress id downloaded total =>
    ("Progress", [("id", id.toJson), ("bytes_downloaded", countJson downloaded),
      ("bytes_total", .ofOption countJson total)])
  | statusChanged id source target =>
    ("StatusChanged", [("id", id.toJson), ("from", source.toJson), ("to", target.toJson)])
  | failed id error => ("Failed", [("id", id.toJson), ("error", .ofText error)])
  | removed id => ("Removed", [("id", id.toJson)])
  | persistenceFailed error => ("PersistenceFailed", [("error", .ofText error)])
  | shutdown => ("Shutdown", [])

theorem Status.toJson_eq (status : Status) : status.toJson = .ofText (Json.snakeCase status.declared) := by
  cases status <;> rfl

/-- A status inside of a value that was read whole is a name as well. -/
theorem Status.ofBuffered?_toJson (status : Status) :
    Status.ofJson? true status.toJson = some status :=
  Status.ofName?_name status

namespace Command

theorem toJson_eq (command : Command) :
    command.toJson = .adjacent "command" "arg" command.declared.1 command.declared.2 := by
  cases command <;> simp [toJson, argument?, name, declared, Json.adjacent, Json.snakeCase]

/-- A command is written with texts and natural numbers only. -/
theorem plain_toJson (command : Command) : command.toJson.Plain := by
  rw [toJson_eq]
  refine Json.plain_adjacent fun value hmem => ?_
  cases command with
  | pause id | resume id | retry id | cancel id | delete id | setMaxConcurrent limit =>
    cases hmem
    exact Json.plain_ofNat _
  | setAutoDownload enabled =>
    cases hmem
    trivial
  | deleteFinished | purge | pauseAll | resumeAll => cases hmem

/-- The members of a command that holds something are its name and what it holds. -/
theorem ofJson?_held (name : String) (arg : Json) :
    ofJson? (.record [("command", .ofText name), ("arg", arg)]) =
      (form? name).bind fun form => ofForm? form arg :=
  rfl

theorem ofJson?_bare (name : String) :
    ofJson? (.record [("command", .ofText name)]) = (form? name).bind ofBareForm? :=
  rfl

theorem ofJson?_toJson (command : Command) : ofJson? command.toJson = some command := by
  cases command with
  | pause id | resume id | retry id | cancel id | delete id =>
    exact (ofJson?_held _ id.toJson).trans (congrArg (Option.map _) (ItemId.ofJson?_toJson id))
  | setMaxConcurrent limit =>
    exact (ofJson?_held _ (countJson limit)).trans
      (congrArg (Option.map setMaxConcurrent) (toUInt64?_countJson limit))
  | setAutoDownload enabled => exact ofJson?_held _ (.bool enabled)
  | deleteFinished | purge | pauseAll | resumeAll => exact ofJson?_bare _

end Command

namespace Outcome

theorem toJson_eq (outcome : Outcome) :
    outcome.toJson = .internal "outcome" outcome.declared.1 outcome.declared.2 := by
  cases outcome <;> simp [toJson, declared, Json.internal, Json.snakeCase]

theorem flat_declared (outcome : Outcome) : ∀ field ∈ outcome.declared.2, Json.Flat field.2 := by
  cases outcome with
  | applied | unchanged => exact fun field hmem => nomatch hmem
  | superseded status => exact List.forall_mem_singleton.mpr (.text _)
  | removed count => exact List.forall_mem_singleton.mpr (.count _)

/-- An event is recognised by its name in small letters. -/
theorem ofTagged?_declared (outcome : Outcome) :
    ofTagged? ⟨Json.snakeCase outcome.declared.1, .record outcome.declared.2⟩ = some outcome := by
  cases outcome with
  | applied | unchanged => rfl
  | superseded status =>
    simp [ofTagged?, declared, Json.snakeCase, Json.slots?_record, Status.ofBuffered?_toJson]
  | removed count =>
    simp [ofTagged?, declared, Json.snakeCase, Json.slots?_record, toUInt64?_countJson]

theorem ofJson?_toJson (outcome : Outcome) : ofJson? outcome.toJson = some outcome := by
  have htag : "outcome" ∉ outcome.declared.2.map Prod.fst := by
    cases outcome <;> simp [declared]
  rw [ofJson?, toJson_eq, Json.tagged?_internal htag outcome.flat_declared, Option.bind_some,
    ofTagged?_declared]

theorem plain_toJson (outcome : Outcome) : outcome.toJson.Plain := by
  rw [toJson_eq]
  exact Json.plain_internal outcome.flat_declared

end Outcome

namespace Event

theorem toJson_eq (event : Event) :
    event.toJson = .internal "type" event.declared.1 event.declared.2 := by
  cases event <;> simp [toJson, declared, Json.internal, Json.snakeCase]

theorem flat_declared (event : Event) : ∀ field ∈ event.declared.2, Json.Flat field.2 := by
  have hid (id : ItemId) : Json.Flat id.toJson := .count id.value
  cases event with
  | queued id url => simp [declared, hid, Json.Flat.text]
  | started id offset => simp [declared, hid, Json.Flat.count, countJson]
  | progress id downloaded total => simp [declared, hid, countJson, Json.Flat.count, Json.flat_ofOption]
  | statusChanged id source target => simp [declared, hid, Json.Flat.text, Status.toJson]
  | failed id error => simp [declared, hid, Json.Flat.text]
  | removed id => simp [declared, hid]
  | persistenceFailed error => simp [declared, Json.Flat.text]
  | shutdown => simp [declared]

theorem ofTagged?_declared (event : Event) :
    ofTagged? ⟨Json.snakeCase event.declared.1, .record event.declared.2⟩ = some event := by
  cases event with
  | queued id url =>
    simp [ofTagged?, declared, Json.snakeCase, Json.slots?_record, ItemId.ofJson?_toJson,
      Json.toText?_ofText]
  | started id offset =>
    simp [ofTagged?, declared, Json.snakeCase, Json.slots?_record, ItemId.ofJson?_toJson,
      toUInt64?_countJson]
  | progress id downloaded total =>
    simp [ofTagged?, declared, Json.snakeCase, Json.slots?_record, ItemId.ofJson?_toJson,
      toUInt64?_countJson, Item.nullable_ofOption]
  | statusChanged id source target =>
    simp [ofTagged?, declared, Json.snakeCase, Json.slots?_record, ItemId.ofJson?_toJson,
      Status.ofBuffered?_toJson]
  | failed id error =>
    simp [ofTagged?, declared, Json.snakeCase, Json.slots?_record, ItemId.ofJson?_toJson,
      Json.toText?_ofText]
  | removed id =>
    simp [ofTagged?, declared, Json.snakeCase, Json.slots?_record, ItemId.ofJson?_toJson]
  | persistenceFailed error =>
    simp [ofTagged?, declared, Json.snakeCase, Json.slots?_record, Json.toText?_ofText]
  | shutdown => rfl

theorem ofJson?_toJson (event : Event) : ofJson? event.toJson = some event := by
  have htag : "type" ∉ event.declared.2.map Prod.fst := by
    cases event <;> simp [declared]
  rw [ofJson?, toJson_eq, Json.tagged?_internal htag event.flat_declared, Option.bind_some,
    ofTagged?_declared]

theorem plain_toJson (event : Event) : event.toJson.Plain := by
  rw [toJson_eq]
  exact Json.plain_internal event.flat_declared

end Event

/-- Commands, outcomes, events, statuses, numbers of items and whole items are received as they were
sent. A command stands beside what it holds, outcomes and events stand among their fields, and a
status and the number of an item stand for themselves. -/
theorem wire_faithful :
    (Json.Faithful Command.toJson Command.ofJson? ∧ ∀ command : Command,
      command.toJson = .adjacent "command" "arg" command.declared.1 command.declared.2) ∧
    (Json.Faithful Outcome.toJson Outcome.ofJson? ∧ ∀ outcome : Outcome,
      outcome.toJson = .internal "outcome" outcome.declared.1 outcome.declared.2) ∧
    (Json.Faithful Event.toJson Event.ofJson? ∧ ∀ event : Event,
      event.toJson = .internal "type" event.declared.1 event.declared.2) ∧
    (Json.Faithful Status.toJson (Status.ofJson? false) ∧ ∀ status : Status,
      status.toJson = .ofText (Json.snakeCase status.declared)) ∧
    (Json.Faithful ItemId.toJson ItemId.ofJson? ∧ ∀ id : ItemId, id.toJson = .ofNat id.value.toNat) ∧
    Json.Faithful Item.toJson Item.ofJson? := by
  refine ⟨⟨?_, Command.toJson_eq⟩, ⟨?_, Outcome.toJson_eq⟩, ⟨?_, Event.toJson_eq⟩,
    ⟨?_, Status.toJson_eq⟩, ⟨?_, fun id => rfl⟩, ?_⟩
  · exact Json.faithful Command.plain_toJson Command.ofJson?_toJson
  · exact Json.faithful Outcome.plain_toJson Outcome.ofJson?_toJson
  · exact Json.faithful Event.plain_toJson Event.ofJson?_toJson
  · exact Json.faithful (fun status => Json.plain_ofText _) Status.ofJson?_toJson
  · exact Json.faithful (fun id => Json.plain_ofNat _) ItemId.ofJson?_toJson
  · exact Json.faithful Item.plain_toJson Item.ofJson?_toJson

example : (Command.pauseAll.toJson.compact, (Outcome.removed 2).toJson.compact) =
    ("\x7b\"command\":\"pause_all\"\x7d".toList,
      "\x7b\"outcome\":\"removed\",\"count\":2\x7d".toList) := by
  decide +kernel

end DownloadQueue
