import Lssvc.Mmedia.Commands
import Lssvc.Utils.Strings

set_option autoImplicit false

namespace Lssvc.Mmedia

open Lssvc.Utils

-- The bytes of a std::string, one character each.
def chars (bytes : Bytes) : Str := bytes.map fun b => Char.ofNat b.toNat

def charBytes (s : Str) : Bytes := s.map fun c => UInt8.ofNat c.toNat

-- What of RtmpContext the name of a session is made from.
structure RtmpNaming where
  isPlayer : Bool := false
  app : Str := []
  tcUrl : Str := []
  name : Str := []
  sessionName : Str := []
  param : Str := []
deriving DecidableEq, Repr

def cutApp (app : Str) : Str :=
  match findFirstOf ['/'] app 0 with
  | some pos => app.drop (pos + 1)
  | none => app

-- The name, and the parameters behind its question mark.
def cutName (name : Str) : Str × Str :=
  match findFirstOf ['?'] name 0 with
  | some pos => (name.take pos, name.drop (pos + 1))
  | none => (name, [])

def cutPort (domain : Str) : Str :=
  match findFirstOf [':'] domain 0 with
  | some p => domain.take p
  | none => domain

-- Both lengths of the list take the same pieces. None of them is name_.
def urlPieces (list : List Str) (app : Str) : Str × Str :=
  match list with
  | [_, _, domain, app, _] => (domain, app)
  | [_, _, domain, app] => (domain, app)
  | _ => ([], app)

def RtmpNaming.parseNameAndTcUrl (ctx : RtmpNaming) : RtmpNaming :=
  let (name, param) := cutName ctx.name
  let (domain, app) := urlPieces (split ctx.tcUrl ['/'] false) (cutApp ctx.app)
  { ctx with
    app := app
    name := name
    param := param
    sessionName := cutPort domain ++ ['/'] ++ app ++ ['/'] ++ name }

def RtmpNaming.handle (ctx : RtmpNaming) : Command → RtmpNaming
  | .connect tcUrl app _ => { ctx with tcUrl := chars tcUrl, app := (app.map chars).getD ctx.app }
  | .play _ name => { ({ ctx with name := chars name }).parseNameAndTcUrl with isPlayer := true }
  | .publish _ name => { ({ ctx with name := chars name }).parseNameAndTcUrl with isPlayer := false }
  | _ => ctx

def slash : UInt8 := 47
def colon : UInt8 := 58
def question : UInt8 := 63

-- The address of a stream: a server, maybe with its port, an application with at
-- most one more segment, and the stream with its parameters.
structure StreamUrl where
  host : Bytes
  port : Option Bytes
  app : Bytes
  segment : Option Bytes
  stream : Bytes
  query : Option Bytes
  hostValid : host ≠ [] ∧ slash ∉ host ∧ colon ∉ host
  portValid : ∀ p ∈ port, slash ∉ p
  appValid : app ≠ [] ∧ slash ∉ app
  segmentValid : ∀ part ∈ segment, part ≠ [] ∧ slash ∉ part
  streamValid : stream ≠ [] ∧ slash ∉ stream ∧ question ∉ stream

def preceded (byte : UInt8) (part : Option Bytes) : Bytes := (part.map (byte :: ·)).getD []

@[simp] theorem preceded_none (byte : UInt8) : preceded byte none = [] := rfl

@[simp] theorem preceded_some (byte : UInt8) (part : Bytes) : preceded byte (some part) = byte :: part := rfl

def StreamUrl.tcUrl (url : StreamUrl) : Bytes :=
  text "rtmp://" ++ url.host ++ preceded colon url.port ++ slash :: url.app ++ preceded slash url.segment

def StreamUrl.playName (url : StreamUrl) : Bytes := url.stream ++ preceded question url.query

def StreamUrl.sessionName (url : StreamUrl) : Str := chars (url.host ++ slash :: url.app ++ slash :: url.stream)

def StreamUrl.SameStream (url other : StreamUrl) : Prop :=
  url.host = other.host ∧ url.app = other.app ∧ url.stream = other.stream

theorem char_byte (b : UInt8) : (Char.ofNat b.toNat).toNat = b.toNat := by
  have small := b.toNat_lt
  have valid : b.toNat.isValidChar := .inl (by omega)
  rw [Char.ofNat, dif_pos valid]
  rfl

theorem char_bytes_chars (bytes : Bytes) : charBytes (chars bytes) = bytes := by
  rw [charBytes, chars, List.map_map]
  refine (List.map_congr_left fun b _ => ?_).trans (List.map_id bytes)
  rw [Function.comp, char_byte, UInt8.ofNat_toNat]
  rfl

theorem chars_injective (left right : Bytes) (same : chars left = chars right) : left = right := by
  rw [← char_bytes_chars left, same, char_bytes_chars]

theorem chars_append (left right : Bytes) : chars (left ++ right) = chars left ++ chars right := List.map_append

theorem char_not_mem (b : UInt8) (bytes : Bytes) (free : b ∉ bytes) : Char.ofNat b.toNat ∉ chars bytes := by
  intro inside
  obtain ⟨other, there, same⟩ := List.mem_map.mp inside
  have values := congrArg Char.toNat same
  rw [char_byte, char_byte] at values
  exact free (UInt8.toNat_inj.mp values ▸ there)

theorem cut_name (url : StreamUrl) :
    cutName (chars url.playName) = (chars url.stream, chars (url.query.getD [])) := by
  obtain ⟨_, _, free⟩ := url.streamValid
  have outside : '?' ∉ chars url.stream := char_not_mem question url.stream free
  rw [cutName, StreamUrl.playName]
  cases url.query with
  | none =>
      rw [preceded_none, List.append_nil, find_first_of_none _ _ outside]
      rfl
  | some q =>
      have whole : chars (url.stream ++ question :: q) = chars url.stream ++ '?' :: chars q := chars_append _ _
      rw [preceded_some, whole, find_first_of_char _ _ _ outside]
      dsimp only
      rw [List.take_left, ← List.drop_drop, List.drop_left]
      rfl

theorem cut_port (url : StreamUrl) : cutPort (chars (url.host ++ preceded colon url.port)) = chars url.host := by
  obtain ⟨_, _, free⟩ := url.hostValid
  have outside : ':' ∉ chars url.host := char_not_mem colon url.host free
  rw [cutPort]
  cases url.port with
  | none => rw [preceded_none, List.append_nil, find_first_of_none _ _ outside]
  | some p =>
      have whole : chars (url.host ++ colon :: p) = chars url.host ++ ':' :: chars p := chars_append _ _
      rw [preceded_some, whole, find_first_of_char _ _ _ outside]
      exact List.take_left

theorem chars_some (bytes : Bytes) (some' : bytes ≠ []) : chars bytes ≠ [] := mt List.map_eq_nil_iff.mp some'

theorem split_url (url : StreamUrl) :
    ∃ more, split (chars url.tcUrl) ['/'] false =
      ['r', 't', 'm', 'p', ':'] :: [] :: chars (url.host ++ preceded colon url.port) :: chars url.app :: more ∧ more.length ≤ 1 := by
  obtain ⟨_, hostFree, _⟩ := url.hostValid
  obtain ⟨appSome, appFree⟩ := url.appValid
  have domainFree : slash ∉ url.host ++ preceded colon url.port := by
    rw [List.mem_append]
    rintro (inHost | inPort)
    · exact hostFree inHost
    · cases given : url.port with
      | none => simp [given] at inPort
      | some p =>
          have portFree := url.portValid p given
          rw [given, preceded_some, List.mem_cons] at inPort
          exact inPort.elim (by decide) portFree
  have whole : chars url.tcUrl =
      ['r', 't', 'm', 'p', ':'] ++ '/' :: ([] ++ '/' :: (chars (url.host ++ preceded colon url.port) ++
        '/' :: (chars url.app ++ chars (preceded slash url.segment)))) := by
    simp only [StreamUrl.tcUrl, chars_append, List.append_assoc]
    rfl
  rw [whole, split_first _ _ _ (by decide), split_first _ _ _ List.not_mem_nil,
    split_first '/' _ _ (char_not_mem slash _ domainFree)]
  have inApp : '/' ∉ chars url.app := char_not_mem slash _ appFree
  cases given : url.segment with
  | none =>
      refine ⟨[], ?_, Nat.zero_le 1⟩
      rw [preceded_none, show chars [] = [] from rfl, List.append_nil,
        split_last _ _ inApp (chars_some _ appSome)]
  | some part =>
      obtain ⟨partSome, partFree⟩ := url.segmentValid part given
      refine ⟨[chars part], ?_, Nat.le_refl 1⟩
      rw [preceded_some]
      change _ :: _ :: _ :: split (chars url.app ++ '/' :: chars part) ['/'] false = _
      rw [split_first _ _ _ inApp, split_last '/' _ (char_not_mem slash _ partFree) (chars_some _ partSome)]

theorem url_pieces (url : StreamUrl) (app : Str) :
    urlPieces (split (chars url.tcUrl) ['/'] false) app = (chars (url.host ++ preceded colon url.port), chars url.app) := by
  obtain ⟨more, pieces, short⟩ := split_url url
  rw [pieces]
  match more with
  | [] => rfl
  | [_] => rfl
  | _ :: _ :: _ => simp at short

theorem parse_name_and_tc_url (url : StreamUrl) (ctx : RtmpNaming) (tcUrl : ctx.tcUrl = chars url.tcUrl)
    (name : ctx.name = chars url.playName) :
    ctx.parseNameAndTcUrl =
      { ctx with
        app := chars url.app
        name := chars url.stream
        param := chars (url.query.getD [])
        sessionName := url.sessionName } := by
  rw [RtmpNaming.parseNameAndTcUrl, name, tcUrl, cut_name, url_pieces]
  dsimp only
  rw [cut_port]
  congr 1
  simp [StreamUrl.sessionName, chars, slash]

theorem split_session_name (url : StreamUrl) :
    split url.sessionName ['/'] false = [chars url.host, chars url.app, chars url.stream] := by
  obtain ⟨_, hostFree, _⟩ := url.hostValid
  obtain ⟨_, appFree⟩ := url.appValid
  obtain ⟨streamSome, streamFree, _⟩ := url.streamValid
  have whole : url.sessionName = chars url.host ++ '/' :: (chars url.app ++ '/' :: chars url.stream) := by
    simp only [StreamUrl.sessionName, chars_append, List.append_assoc]
    rfl
  rw [whole, split_first '/' _ _ (char_not_mem slash _ hostFree), split_first '/' _ _ (char_not_mem slash _ appFree),
    split_last '/' _ (char_not_mem slash _ streamFree) (chars_some _ streamSome)]

theorem session_names_same_iff (url other : StreamUrl) : url.sessionName = other.sessionName ↔ url.SameStream other := by
  constructor
  · intro same
    have pieces := congrArg (fun name => split name ['/'] false) same
    rw [split_session_name, split_session_name] at pieces
    injection pieces with host rest
    injection rest with app rest
    injection rest with stream
    exact ⟨chars_injective _ _ host, chars_injective _ _ app, chars_injective _ _ stream⟩
  · rintro ⟨host, app, stream⟩
    rw [StreamUrl.sessionName, host, app, stream, StreamUrl.sessionName]

def Command.IsConnect : Command → Prop
  | .connect _ _ _ => True
  | _ => False

structure Visit where
  url : StreamUrl
  app : Option Bytes
  objectEncoding : Option Bytes
  between : List Command
  connectedOnce : ∀ command ∈ between, ¬ command.IsConnect
  isPlayer : Bool
  tranId : Bytes

def Visit.commands (visit : Visit) : List Command :=
  .connect visit.url.tcUrl visit.app visit.objectEncoding :: visit.between ++
    [if visit.isPlayer then .play visit.tranId visit.url.playName else .publish visit.tranId visit.url.playName]

theorem handle_keeps_url (ctx : RtmpNaming) (command : Command) (other : ¬ command.IsConnect) :
    (ctx.handle command).tcUrl = ctx.tcUrl := by
  cases command with
  | connect tcUrl app objectEncoding => exact absurd trivial other
  | _ => rfl

theorem between_keeps_url (ctx : RtmpNaming) (between : List Command) (others : ∀ command ∈ between, ¬ command.IsConnect) :
    (between.foldl RtmpNaming.handle ctx).tcUrl = ctx.tcUrl := by
  induction between generalizing ctx with
  | nil => rfl
  | cons command between ih =>
      obtain ⟨here, later⟩ := List.forall_mem_cons.mp others
      exact (ih _ later).trans (handle_keeps_url ctx command here)

theorem visit_named (visit : Visit) (before : RtmpNaming) :
    let after := visit.commands.foldl RtmpNaming.handle before
    after.sessionName = visit.url.sessionName ∧ after.param = chars (visit.url.query.getD []) ∧
      after.isPlayer = visit.isPlayer := by
  have kept := between_keeps_url (before.handle (.connect visit.url.tcUrl visit.app visit.objectEncoding)) visit.between
    visit.connectedOnce
  rw [Visit.commands, List.foldl_append, List.foldl_cons, List.foldl_cons, List.foldl_nil]
  generalize List.foldl RtmpNaming.handle (before.handle _) visit.between = ctx at kept
  have named := parse_name_and_tc_url visit.url { ctx with name := chars visit.url.playName } kept rfl
  dsimp only
  cases visit.isPlayer with
  | true =>
      rw [if_pos rfl, RtmpNaming.handle, named]
      exact ⟨rfl, rfl, rfl⟩
  | false =>
      rw [if_neg Bool.false_ne_true, RtmpNaming.handle, named]
      exact ⟨rfl, rfl, rfl⟩

end Lssvc.Mmedia
