import TriggerBench.Responder

/-! # Tables that registering leads to

No registered command expects more payload than a payload may hold. Registering a command
decides what is found for it, and nothing else.
-/

namespace TriggerBench

variable {World : Type}

namespace CommandTable

inductive Built : CommandTable World → Prop
  | empty : Built .empty
  | registered {table after : CommandTable World} {entry : CommandEntry World}
      (built : Built table) (done : table.register entry = .ok after) : Built after

inductive Registered (table : CommandTable World) (entry : CommandEntry World) :
    Except RegistrationError (CommandTable World) → Prop
  | payloadTooLong (long : maxPayload < entry.length) :
      Registered table entry (.error .payloadTooLong)
  | full (fits : entry.length ≤ maxPayload) (unknown : table.find? entry.command = none)
      (noRoom : maxCommands ≤ table.entries.length) :
      Registered table entry (.error .full)
  | replaced (fits : entry.length ≤ maxPayload)
      (known : (table.find? entry.command).isSome) :
      Registered table entry (.ok { entries := replaceIn entry table.entries })
  | added (fits : entry.length ≤ maxPayload) (unknown : table.find? entry.command = none)
      (room : table.entries.length < maxCommands) :
      Registered table entry (.ok { entries := table.entries ++ [entry] })

theorem registered (table : CommandTable World) (entry : CommandEntry World) :
    Registered table entry (table.register entry) := by
  unfold register
  split
  case isTrue long => exact .payloadTooLong long
  case isFalse notLong =>
      have fits : entry.length ≤ maxPayload := Nat.not_lt.mp notLong
      split
      case isTrue known => exact .replaced fits known
      case isFalse notKnown =>
          have unknown : table.find? entry.command = none := by simpa using notKnown
          split
          case isTrue room => exact .added fits unknown room
          case isFalse noRoom => exact .full fits unknown (Nat.not_lt.mp noRoom)

private theorem mem_replaceIn {entry present : CommandEntry World}
    {entries : List (CommandEntry World)} (member : present ∈ replaceIn entry entries) :
    present = entry ∨ present ∈ entries := by
  induction entries with
  | nil => simp [replaceIn] at member
  | cons first rest induction =>
      rw [replaceIn] at member
      split at member
      · rcases List.mem_cons.mp member with isEntry | inRest
        · exact .inl isEntry
        · exact .inr (List.mem_cons_of_mem first inRest)
      · rcases List.mem_cons.mp member with rfl | inRest
        · exact .inr List.mem_cons_self
        · rcases induction inRest with isEntry | known
          · exact .inl isEntry
          · exact .inr (List.mem_cons_of_mem first known)

theorem mem_of_register {table after : CommandTable World}
    {entry present : CommandEntry World} (done : table.register entry = .ok after)
    (member : present ∈ after.entries) :
    (present = entry ∧ entry.length ≤ maxPayload) ∨ present ∈ table.entries := by
  have registered := registered table entry
  rw [done] at registered
  cases registered with
  | replaced fits _ =>
      rcases mem_replaceIn member with isEntry | inTable
      · exact .inl ⟨isEntry, fits⟩
      · exact .inr inTable
  | added fits _ _ =>
      rcases List.mem_append.mp member with inTable | isLast
      · exact .inr inTable
      · exact .inl ⟨List.mem_singleton.mp isLast, fits⟩

private theorem find?_replaceIn {entry : CommandEntry World}
    {entries : List (CommandEntry World)}
    (known : (entries.find? (·.command == entry.command)).isSome) (command : UInt8) :
    (replaceIn entry entries).find? (·.command == command) =
      if entry.command = command then some entry
        else entries.find? (·.command == command) := by
  induction entries with
  | nil => simp at known
  | cons first rest induction =>
      by_cases same : first.command = entry.command
      · by_cases asked : entry.command = command <;> simp [replaceIn, same, asked]
      · have knownBehind :
          (rest.find? (·.command == entry.command)).isSome := by simpa [same] using known
        have kept : replaceIn entry (first :: rest) = first :: replaceIn entry rest := by
          simp [replaceIn, same]
        rw [kept]
        by_cases asked : first.command = command
        · have notEntry : entry.command ≠ command :=
            fun isEntry => same (asked.trans isEntry.symm)
          simp [asked, notEntry]
        · simp [asked, induction knownBehind]

theorem find?_of_register {table after : CommandTable World} {entry : CommandEntry World}
    (done : table.register entry = .ok after) (command : UInt8) :
    after.find? command = if entry.command = command then some entry
      else table.find? command := by
  have registered := registered table entry
  rw [done] at registered
  cases registered with
  | replaced _ known => exact find?_replaceIn known command
  | added _ unknown _ =>
      by_cases asked : entry.command = command
      · rw [asked, find?] at unknown
        simp [find?, unknown, asked]
      · simp [find?, asked]

theorem Built.length_le {table : CommandTable World} (built : table.Built) :
    ∀ entry ∈ table.entries, entry.length ≤ maxPayload := by
  induction built with
  | empty =>
      intro entry member
      cases member
  | registered built done induction =>
      intro entry member
      rcases mem_of_register done member with ⟨rfl, lengthLe⟩ | inTable
      · exact lengthLe
      · exact induction entry inTable

end CommandTable

theorem Responder.expectedLength_le {responder : Responder World}
    (built : responder.table.Built) {command : UInt8} {length : Nat}
    (expected : responder.expectedLength command = some length) :
    length ≤ maxPayload := by
  unfold expectedLength at expected
  split at expected
  case h_1 entry found =>
      cases expected
      exact built.length_le entry (List.mem_of_find?_eq_some found)
  case h_2 =>
      split at expected
      · cases expected
        exact Nat.zero_le _
      · cases expected

end TriggerBench
