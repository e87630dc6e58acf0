import StoreCpp.Extensions
import StoreCpp.Nvarchar

/-!
# The message of the notification trigger

The trigger puts the rows of a change into one XML text of any length and
sends it through the service; the script that receives it casts what it has
got to a text of a fixed length.  What the two queries over the changed rows
give is an input, NULL where there are no rows.
-/

namespace StoreCpp

open Nvarchar

/-- A literal of a script. -/
def nLiteral (text : String) : Text :=
  text.toList.map fun c => UInt16.ofNat c.toNat

namespace Notifier

structure TriggerVariables where
  message : Nullable
  retvalOUT : Nullable := none

/-- `%inserted_select_statement%` and `%deleted_select_statement%`: the
variable is assigned the XML of the rows. -/
def selectStatement (xml : Nullable) (vars : TriggerVariables) :
    TriggerVariables :=
  { vars with retvalOUT := xml }

def rootEmpty : Nullable := some (nLiteral "<root/>")

def rootOpening : Nullable := some (nLiteral "<root>")

def rootClosing : Nullable := some (nLiteral "</root>")

/-- The body of the trigger up to the dialog; the details are included. -/
def notificationTrigger (inserted deleted : Nullable) : TriggerVariables :=
  let vars : TriggerVariables := { message := rootEmpty }
  let vars := selectStatement inserted vars
  let vars :=
    if vars.retvalOUT.isSome then
      { vars with message := concat rootOpening vars.retvalOUT }
    else vars
  let vars := selectStatement deleted vars
  let vars :=
    if vars.retvalOUT.isSome then
      if equals vars.message rootEmpty then
        { vars with message := concat rootOpening vars.retvalOUT }
      else { vars with message := concat vars.message vars.retvalOUT }
    else vars
  if differs vars.message rootEmpty then
    { vars with message := concat vars.message rootClosing }
  else vars

/-- `SEND ON CONVERSATION`: the body of the message in the queue. -/
def sendMessage (message : Nullable) : Option Bytes :=
  message.map toVarbinary

/-- The one row and column that the script of `sqlFormatReceiveEvent`
selects. -/
def receiveEvent (message : Option Bytes) : List (List Nullable) :=
  [[message.map fun message => cast 4000 (ofVarbinary message)]]

/-- What `notificationLoop` passes to its callback. -/
def callbackMessage (fieldValues : List (List Nullable)) : Nullable :=
  if 0 < fieldValues.length then
    ((fieldValues[0]?.bind fun row => row[0]?).bind fun value => value)
  else some []

/-- The message that a firing of the trigger is for. -/
def assembledMessage (inserted deleted : Nullable) : Text :=
  if inserted.isNone ∧ deleted.isNone then nLiteral "<root/>"
  else
    nLiteral "<root>" ++ inserted.getD [] ++ deleted.getD [] ++
      nLiteral "</root>"

def PassesAssembled (inserted deleted : Nullable) : Prop :=
  callbackMessage (receiveEvent (sendMessage
    (notificationTrigger inserted deleted).message)) =
      some (assembledMessage inserted deleted)

/-- What is selected of the changed rows fits between the tags. -/
def FitsCast (inserted deleted : Nullable) : Prop :=
  (inserted.getD []).length + (deleted.getD []).length ≤ 3987

/-- A text that starts with the opening tag is not the empty one. -/
theorem opening_ne_empty (text : Text) :
    nLiteral "<root>" ++ text ≠ nLiteral "<root/>" := by
  intro hsame
  have hsixth := congrArg (fun text => text[5]?) hsame
  have hopening : (nLiteral "<root>" ++ text)[5]? =
      (nLiteral "<root>")[5]? := List.getElem?_append_left (by decide)
  rw [hopening] at hsixth
  exact absurd hsixth (by decide)

theorem equals_opening (text : Text) :
    equals (some (nLiteral "<root>" ++ text)) rootEmpty = false :=
  beq_eq_false_iff_ne.mpr (opening_ne_empty text)

theorem differs_opening (text : Text) :
    differs (some (nLiteral "<root>" ++ text)) rootEmpty = true :=
  bne_iff_ne.mpr (opening_ne_empty text)

theorem notificationTrigger_message (inserted deleted : Nullable) :
    (notificationTrigger inserted deleted).message =
      some (assembledMessage inserted deleted) := by
  have hempty : differs rootEmpty rootEmpty = false := by decide
  have hequal : equals rootEmpty rootEmpty = true := by decide
  cases inserted with
  | none =>
      cases deleted with
      | none =>
          simp [notificationTrigger, selectStatement, hempty,
            assembledMessage]
          rfl
      | some deleted =>
          simp [notificationTrigger, selectStatement, hequal, rootOpening,
            rootClosing, concat_some, differs_opening, assembledMessage]
  | some inserted =>
      cases deleted with
      | none =>
          simp [notificationTrigger, selectStatement, rootOpening,
            rootClosing, concat_some, differs_opening, assembledMessage]
      | some deleted =>
          simp [notificationTrigger, selectStatement, rootOpening,
            rootClosing, concat_some, equals_opening, differs_opening,
            assembledMessage]

theorem callbackMessage_eq (message : Text) :
    callbackMessage (receiveEvent (sendMessage (some message))) =
      some (cast 4000 message) := by
  have hbody := ofVarbinary_toVarbinary message
  simp [callbackMessage, receiveEvent, sendMessage, hbody]

theorem assembledMessage_length_le (inserted deleted : Nullable) :
    (assembledMessage inserted deleted).length ≤ 4000 ↔
      FitsCast inserted deleted := by
  have hempty : (nLiteral "<root/>").length = 7 := by decide
  have hopening : (nLiteral "<root>").length = 6 := by decide
  have hclosing : (nLiteral "</root>").length = 7 := by decide
  unfold assembledMessage FitsCast
  split_ifs with hnone
  · obtain ⟨hinserted, hdeleted⟩ := hnone
    rw [Option.isNone_iff_eq_none] at hinserted hdeleted
    simp [hinserted, hdeleted, hempty]
  · rw [List.length_append, List.length_append, List.length_append, hopening,
      hclosing]
    omega

theorem passesAssembled_iff_length (inserted deleted : Nullable) :
    PassesAssembled inserted deleted ↔
      (assembledMessage inserted deleted).length ≤ 4000 := by
  unfold PassesAssembled
  rw [notificationTrigger_message, callbackMessage_eq, Option.some.injEq,
    cast_eq_self_iff]

/-- The callback gets the message of the trigger exactly when the XML of the
rows leaves room for the tags in 4000 code units. -/
theorem passesAssembled_iff (inserted deleted : Nullable) :
    PassesAssembled inserted deleted ↔ FitsCast inserted deleted :=
  (passesAssembled_iff_length inserted deleted).trans
    (assembledMessage_length_le inserted deleted)

/-- An inserted row with a text of many letters. -/
def longRow (n : ℕ) : Text :=
  nLiteral "<inserted><row><text>" ++ List.replicate n 0x61 ++
    nLiteral "</text></row></inserted>"

theorem length_longRow (n : ℕ) : n ≤ (longRow n).length := by
  unfold longRow
  rw [List.length_append, List.length_append, List.length_replicate]
  omega

theorem longRow_not_passed :
    ¬ ∀ inserted deleted : Nullable, PassesAssembled inserted deleted := by
  intro hclaim
  have hfits := (assembledMessage_length_le (some (longRow 4000)) none).mp
    ((passesAssembled_iff_length _ _).mp (hclaim (some (longRow 4000)) none))
  have hlength := length_longRow 4000
  unfold FitsCast at hfits
  rw [Option.getD_some] at hfits
  omega

end Notifier

end StoreCpp
