import Ferrixd.Encode
import Ferrixd.S2S.Delivery

/-! # Frames that a link carries

A frame is read from a line, so its fields are of the form that the grammar gives them. -/

namespace Ferrixd

open Protocol

/-! ## Parameters of a line -/

namespace Protocol.ParamsWellFormed

variable {params : List String} {field : String}

theorem tail (wellFormed : ParamsWellFormed (field :: params)) : ParamsWellFormed params := by
  cases params with
  | nil => trivial
  | cons next more => exact wellFormed.2

theorem drop (wellFormed : ParamsWellFormed params) (count : Nat) : ParamsWellFormed (params.drop count) := by
  induction count generalizing params with
  | zero => exact wellFormed
  | succ count ih =>
    cases params with
    | nil => trivial
    | cons field rest => exact ih wellFormed.tail

/-- Any parameter is free of the bytes that end a line. -/
theorem trailing (wellFormed : ParamsWellFormed params) (member : field ∈ params) : Trailing field := by
  induction params with
  | nil => cases member
  | cons first rest ih =>
    rcases List.mem_cons.mp member with rfl | member
    · cases rest with
      | nil => exact wellFormed
      | cons next more => exact trailing_of_middle wellFormed.1
    · exact ih wellFormed.tail member

/-- A parameter with another one behind it is a middle one. -/
theorem middle {i j : Nat} {later : String} (wellFormed : ParamsWellFormed params) (read : params[i]? = some field)
    (next : params[j]? = some later) (before : i < j) : Middle field := by
  induction params generalizing i j with
  | nil => cases read
  | cons first rest ih =>
    obtain ⟨j, rfl⟩ : ∃ k, j = k + 1 := ⟨j - 1, by omega⟩
    rw [List.getElem?_cons_succ] at next
    cases i with
    | zero =>
      cases read
      cases rest with
      | nil => cases next
      | cons second more => exact wellFormed.1
    | succ i =>
      rw [List.getElem?_cons_succ] at read
      exact ih wellFormed.tail read next (by omega)

end Protocol.ParamsWellFormed

namespace LinkMessage

/-! ## Fields of a frame -/

/-- The fields of a bridged frame are such as a line gives them. -/
def Spelled : LinkMessage → Prop
  | .uid sid _ _ n user host account realname =>
    Middle sid ∧ Middle n ∧ Middle user ∧ Middle host ∧ Middle account ∧ Trailing realname
  | .nick _ n => Trailing n
  | .quit _ reason => Trailing reason
  | .sjoin channel _ _ _ _ => Middle channel
  | .spart channel _ reason => Middle channel ∧ Trailing reason
  | .smode channel _ _ flags args => Middle channel ∧ ParamsWellFormed (flags :: args)
  | .skick channel _ _ reason => Middle channel ∧ Trailing reason
  | .stopic channel _ setBy _ text => Middle channel ∧ Middle setBy ∧ Trailing text
  | .saway _ reason => ∀ text ∈ reason, Trailing text
  | .saccount _ account => Trailing account
  | .kill _ reason => Trailing reason
  | .schghost _ host => Trailing host
  | .sinvite _ _ channel => Trailing channel
  | _ => True

theorem spelled_of_fromParams {verb : String} {params : List String} {message : LinkMessage}
    (wellFormed : ParamsWellFormed params) (read : fromParams verb params = some message) : message.Spelled := by
  have middle : ∀ {i j : Nat} {field later : String}, params[i]? = some field → params[j]? = some later → i < j →
      Middle field := fun found next before => wellFormed.middle found next before
  have trailing : ∀ {i : Nat} {field : String}, params[i]? = some field → Trailing field :=
    fun found => wellFormed.trailing (List.mem_of_getElem? found)
  rw [fromParams.eq_def] at read
  split at read
  all_goals try simp only [Option.bind_eq_bind, Option.bind_eq_some_iff, Option.pure_def, Option.some.injEq] at read
  case h_6 =>
    obtain ⟨_, sid, _, _, _, _, _, _, _, nick, _, user, _, host, _, account, _, realname, rfl⟩ := read
    exact ⟨middle sid realname (by decide), middle nick realname (by decide), middle user realname (by decide),
      middle host realname (by decide), middle account realname (by decide), trailing realname⟩
  case h_7 =>
    obtain ⟨_, _, _, nick, rfl⟩ := read
    exact trailing nick
  case h_8 =>
    obtain ⟨_, _, _, reason, rfl⟩ := read
    exact trailing reason
  case h_10 =>
    obtain ⟨_, channel, _, user, rfl⟩ := read
    exact middle channel user (by decide)
  case h_11 =>
    obtain ⟨_, channel, _, _, _, setBy, _, _, _, _, _, text, rfl⟩ := read
    exact ⟨middle channel text (by decide), middle setBy text (by decide), trailing text⟩
  case h_12 =>
    obtain ⟨_, channel, _, _, _, flags, rfl⟩ := read
    -- the timestamp may be left out
    have modes : ∀ {place : Nat} {flags : String}, params[place]? = some flags →
        ParamsWellFormed (flags :: params.drop (place + 1)) := by
      intro place flags found
      obtain ⟨within, rfl⟩ := List.getElem?_eq_some_iff.mp found
      rw [List.getElem_cons_drop]
      exact wellFormed.drop place
    exact ⟨middle channel flags (by split <;> exact Nat.succ_pos _), modes flags⟩
  case h_13 =>
    obtain ⟨_, channel, _, _, _, _, _, reason, rfl⟩ := read
    exact ⟨middle channel reason (by decide), trailing reason⟩
  case h_14 =>
    obtain ⟨_, _, rfl⟩ := read
    exact fun text reason => trailing reason
  case h_16 =>
    obtain ⟨_, _, _, host, rfl⟩ := read
    exact trailing host
  case h_18 =>
    obtain ⟨_, _, _, _, _, channel, rfl⟩ := read
    exact trailing channel
  case h_20 =>
    obtain ⟨_, _, _, account, rfl⟩ := read
    exact trailing account
  case h_21 =>
    obtain ⟨_, channel, _, _, _, reason, rfl⟩ := read
    exact ⟨middle channel reason (by decide), trailing reason⟩
  case h_28 =>
    obtain ⟨_, _, _, reason, rfl⟩ := read
    exact trailing reason
  -- no line of the bridge is made of the others
  all_goals grind [Spelled]

/-- A frame that some line of a link is read as. -/
def Carried (message : LinkMessage) : Prop :=
  ∃ line, readFrame line = some message

theorem Carried.spelled {message : LinkMessage} (carried : message.Carried) : message.Spelled := by
  obtain ⟨line, read⟩ := carried
  rw [readFrame, Message.parse] at read
  cases accepted : parse line Limits.ircv3 with
  | error =>
    rw [accepted] at read
    cases read
  | ok parsed =>
    rw [accepted, Except.toOption, Option.bind_some, fromMessage] at read
    obtain ⟨wellFormed, -, -⟩ := parse_wellFormed accepted
    split at read
    · cases read
    · exact spelled_of_fromParams wellFormed.params read

/-- A well-formed frame of an acceptable length is read from its own line. -/
theorem WellFormed.carried {message : LinkMessage} (wellFormed : message.WellFormed)
    (fits : message.toLine.length ≤ parsedLineBytes) : message.Carried := by
  refine ⟨utf8 message.frame.line.buf, ?_⟩
  rw [readFrame_line wellFormed, if_pos fits]

end LinkMessage

end Ferrixd
