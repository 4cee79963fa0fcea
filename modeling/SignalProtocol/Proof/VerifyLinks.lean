import Mathlib.Data.List.TakeWhile
import SignalProtocol.Proof.Base64Codec
import SignalProtocol.Proof.JsStrings
import SignalProtocol.Safety.Core

/-! # Links that carry scannable codes

A form query gives its values back, a link is the URL of its configuration with that query, and a
scanner finds the same code in a link and in the bare text. -/

open List

namespace SignalProtocol.Url

open JsString Results

variable {input : JsString} {entries : List (JsString × JsString)} {code : UInt16}
  {piece : JsString} {α : Type} {ends : UInt16 → Bool} {byte : UInt8}

/-! ## Form components -/

inductive FormPiece (byte : UInt8) : JsString → Prop where
  | plain (code : UInt16) (hpercent : code ≠ unit '%')
      (hbyte : (if code = unit '+' then 0x20 else UInt8.ofNat code.toNat) = byte)
      (hclass : isQueryUnit code = true) : FormPiece byte [code]
  | escaped (first second : UInt16) (hbyte : escapedByte first second = byte)
      (hfirst : (hexValue first).isSome = true) (hsecond : (hexValue second).isSome = true) :
      FormPiece byte [unit '%', first, second]

def isSeparator (code : UInt16) : Bool := !isPrintable code || code ∈ units "#\\&="

theorem formByte_facts (byte : UInt8) :
    (isFormUnit byte.toNat = true → UInt16.ofNat byte.toNat ≠ unit '%' ∧
      UInt16.ofNat byte.toNat ≠ unit '+' ∧ isQueryUnit (UInt16.ofNat byte.toNat) = true) ∧
    escapedByte (upperHexDigit (byte.toNat / 16)) (upperHexDigit (byte.toNat % 16)) = byte ∧
    (hexValue (upperHexDigit (byte.toNat / 16))).isSome = true ∧
    (hexValue (upperHexDigit (byte.toNat % 16))).isSome = true ∧
    (encodeFormByte byte).all (fun code => !isSeparator code) = true := by
  have hall : ∀ value : Fin 256,
      (isFormUnit value = true → UInt16.ofNat value ≠ unit '%' ∧
        UInt16.ofNat value ≠ unit '+' ∧ isQueryUnit (UInt16.ofNat value) = true) ∧
      escapedByte (upperHexDigit (value / 16)) (upperHexDigit (value % 16)) = UInt8.ofNat value ∧
      (hexValue (upperHexDigit (value / 16))).isSome = true ∧
      (hexValue (upperHexDigit (value % 16))).isSome = true ∧
      (encodeFormByte (UInt8.ofNat value)).all (fun code => !isSeparator code) = true := by
    decide +kernel
  have hbyte := hall ⟨byte.toNat, byte.toNat_lt⟩
  rwa [UInt8.ofNat_toNat] at hbyte

theorem formPiece_encodeFormByte (byte : UInt8) : FormPiece byte (encodeFormByte byte) := by
  obtain ⟨hplain, hescaped, hfst, hsnd, -⟩ := formByte_facts byte
  rw [encodeFormByte]
  split
  · rename_i hspace
    exact .plain _ (by decide) (by rw [hspace]; rfl) (by decide)
  · split
    · rename_i hunit
      obtain ⟨hpercent, hplus, hclass⟩ := hplain hunit
      refine .plain _ hpercent ?_ hclass
      have hsmall : byte.toNat < 2 ^ 16 := lt_trans byte.toNat_lt (by decide)
      rw [if_neg hplus, UInt16.toNat_ofNat', Nat.mod_eq_of_lt hsmall, UInt8.ofNat_toNat]
    · exact .escaped _ _ hescaped hfst hsnd

theorem formBytes_cons (hcode : code ≠ unit '%') (rest : JsString) :
    formBytes (code :: rest) =
      (if code = unit '+' then 0x20 else UInt8.ofNat code.toNat) :: formBytes rest := by
  rcases rest with _ | ⟨first, _ | ⟨second, rest⟩⟩
  · simp [formBytes, hcode]
  · simp [formBytes, hcode]
  · rw [formBytes, if_neg hcode]

theorem isEscaped_cons {inClass : UInt16 → Bool} (hcode : code ≠ unit '%')
    (hclass : inClass code = true) (rest : JsString) :
    isEscaped inClass (code :: rest) = isEscaped inClass rest := by
  rcases rest with _ | ⟨first, _ | ⟨second, rest⟩⟩
  · simp [isEscaped, hcode, hclass]
  · simp [isEscaped, hcode, hclass]
  · rw [isEscaped, if_neg hcode, hclass, Bool.true_and]

theorem formBytes_piece (hpiece : FormPiece byte piece)
    (rest : JsString) : formBytes (piece ++ rest) = byte :: formBytes rest := by
  cases hpiece with
  | plain code hpercent hbyte hclass =>
    rw [singleton_append, formBytes_cons hpercent, hbyte]
  | escaped first second hbyte hfst hsnd =>
    rw [cons_append, cons_append, singleton_append, formBytes, if_pos rfl, hbyte]

theorem isEscaped_piece (hpiece : FormPiece byte piece) (rest : JsString) :
    isEscaped isQueryUnit (piece ++ rest) = isEscaped isQueryUnit rest := by
  cases hpiece with
  | plain code hpercent hbyte hclass =>
    rw [singleton_append, isEscaped_cons hpercent hclass]
  | escaped first second hbyte hfst hsnd =>
    rw [cons_append, cons_append, singleton_append, isEscaped, if_pos rfl, hfst,
      hsnd, Bool.true_and, Bool.true_and]

theorem formBytes_flatMap (bytes : Bytes) : formBytes (bytes.flatMap encodeFormByte) = bytes := by
  induction bytes with
  | nil => rfl
  | cons byte bytes ih =>
    rw [flatMap_cons, formBytes_piece (formPiece_encodeFormByte byte), ih]

theorem isEscaped_encodeFormComponent (text rest : JsString) :
    isEscaped isQueryUnit (encodeFormComponent text ++ rest) = isEscaped isQueryUnit rest := by
  rw [encodeFormComponent]
  induction JsString.encode text with
  | nil => rfl
  | cons byte bytes ih =>
    rw [flatMap_cons, append_assoc, isEscaped_piece (formPiece_encodeFormByte byte), ih]

variable {text : JsString}

theorem not_separator_of_mem
    (hmem : code ∈ encodeFormComponent text) : isSeparator code = false := by
  obtain ⟨byte, -, hmem⟩ := mem_flatMap.mp hmem
  have hall := (formByte_facts byte).2.2.2.2
  simpa using all_eq_true.mp hall code hmem

theorem not_mem_encodeFormComponent {separator : UInt16} (hsep : isSeparator separator = true)
    (text : JsString) : separator ∉ encodeFormComponent text := by
  intro hmem
  rw [not_separator_of_mem hmem] at hsep
  cases hsep

/-- A component gives its text back, unless a byte order mark begins it. -/
theorem decodeFormComponent_encodeFormComponent (htext : text.head? ≠ some 0xfeff) :
    decodeFormComponent (encodeFormComponent text) = .ok (toWellFormed text) := by
  have hmark : (JsString.encode text).take 3 ≠ [0xef, 0xbb, 0xbf] := by
    intro htake
    apply htext
    have hsplit := List.take_append_drop 3 (JsString.encode text)
    rw [htake] at hsplit
    have hchars := utf8DecodeLoop_encoded (toChars text)
    rw [← encode_eq, ← hsplit] at hchars
    rw [← head?_toChars_eq_mark, ← hchars]
    exact congrArg List.head? (utf8DecodeLoop_mark _)
  rw [decodeFormComponent, encodeFormComponent, formBytes_flatMap, if_neg hmark, utf8DecodeFatal,
    encode_eq, utf8DecodeLoop_encoded]
  exact if_pos rfl

variable {stop : α}
  (keep : α → Bool)

theorem takeWhile_append_stop (hstop : keep stop = false)
    (text rest : List α) : (text ++ stop :: rest).takeWhile keep = text.takeWhile keep := by
  induction text with
  | nil => rw [nil_append, List.takeWhile_cons, hstop]; rfl
  | cons code text ih => rw [cons_append, List.takeWhile_cons, List.takeWhile_cons, ih]

theorem dropWhile_append_stop (hstop : keep stop = false) (text rest : List α) :
    (text ++ stop :: rest).dropWhile keep = text.dropWhile keep ++ stop :: rest := by
  induction text with
  | nil => rw [nil_append, dropWhile_cons, hstop]; rfl
  | cons code text ih =>
    rw [cons_append, dropWhile_cons, dropWhile_cons]
    split
    · exact ih
    · rfl

variable {stop : UInt16}

theorem splitAtUnit_append (hstop : ends stop = true)
    (text rest : JsString) : splitAtUnit ends (text ++ stop :: rest) =
      ((splitAtUnit ends text).1, (splitAtUnit ends text).2 ++ stop :: rest) := by
  have hkeep : (!ends stop) = false := by rw [hstop]; rfl
  rw [splitAtUnit, takeWhile_append_stop (fun code => !ends code) hkeep,
    dropWhile_append_stop (fun code => !ends code) hkeep]
  rfl

theorem splitAtUnit_eq_self
    (htext : ∀ code ∈ text, ends code = false) : splitAtUnit ends text = (text, []) := by
  rw [splitAtUnit, List.takeWhile_eq_self_iff.mpr fun code hmem => by rw [htext code hmem]; rfl,
    dropWhile_eq_nil_iff.mpr fun code hmem => by rw [htext code hmem]; rfl]

def pairText (entry : JsString × JsString) : JsString :=
  encodeFormComponent entry.1 ++ unit '=' :: encodeFormComponent entry.2

theorem decodePair_pairText {entry : JsString × JsString} (hname : entry.1.head? ≠ some 0xfeff)
    (hval : entry.2.head? ≠ some 0xfeff) :
    decodePair (pairText entry) = .ok (toWellFormed entry.1, toWellFormed entry.2) := by
  have hself : splitAtUnit (fun code => code = unit '=') (encodeFormComponent entry.1) =
      (encodeFormComponent entry.1, []) := by
    apply splitAtUnit_eq_self
    intro code hmem
    rw [decide_eq_false_iff_not]
    rintro rfl
    exact not_mem_encodeFormComponent (by decide) _ hmem
  rw [decodePair, pairText, splitAtUnit_append (by decide), hself]
  dsimp only
  rw [decodeFormComponent_encodeFormComponent hname, ok_bind, nil_append, List.tail_cons,
    decodeFormComponent_encodeFormComponent hval, ok_bind]
  rfl

theorem pairText_ne_nil (entry : JsString × JsString) : pairText entry ≠ [] :=
  append_ne_nil_of_right_ne_nil _ (cons_ne_nil _ _)

theorem encodeQuery_eq (entries : List (JsString × JsString)) :
    encodeQuery entries = [unit '&'].intercalate (entries.map pairText) := rfl

variable {url : ParsedUrl}

theorem queryValues_encodeQuery
    (hurl : url.search = unit '?' :: encodeQuery entries) (hentries : entries ≠ [])
    (hmarks : ∀ entry ∈ entries, entry.1.head? ≠ some 0xfeff ∧ entry.2.head? ≠ some 0xfeff)
    (name : JsString) :
    queryValues url name = .ok (((entries.map fun entry =>
      (toWellFormed entry.1, toWellFormed entry.2)).filter fun pair => pair.1 = name).map
        Prod.snd) := by
  have hpairs : split (unit '&') (encodeQuery entries) = entries.map pairText := by
    rw [encodeQuery_eq, split]
    refine List.splitOn_intercalate (unit '&') ?_ (by rwa [Ne, map_eq_nil_iff])
    intro pair hpair hmem
    obtain ⟨entry, -, rfl⟩ := mem_map.mp hpair
    rcases mem_append.mp hmem with hmem | hmem
    · exact not_mem_encodeFormComponent (by decide) _ hmem
    · rcases mem_cons.mp hmem with hmem | hmem
      · exact absurd hmem (by decide)
      · exact not_mem_encodeFormComponent (by decide) _ hmem
  have hfilter : (entries.map pairText).filter (· ≠ []) = entries.map pairText := by
    rw [filter_eq_self]
    intro pair hpair
    obtain ⟨entry, -, rfl⟩ := mem_map.mp hpair
    exact decide_eq_true (pairText_ne_nil entry)
  have hdec : (entries.map pairText).mapM decodePair = .ok (entries.map fun entry =>
      (toWellFormed entry.1, toWellFormed entry.2)) := by
    clear hurl hentries hpairs hfilter
    induction entries with
    | nil => rfl
    | cons entry entries ih =>
      obtain ⟨hentry, hentries⟩ := forall_mem_cons.mp hmarks
      rw [map_cons, mapM_cons, decodePair_pairText hentry.1 hentry.2, ok_bind, ih hentries, ok_bind]
      rfl
  rw [queryValues, hurl, List.tail_cons, hpairs, hfilter, hdec, ok_bind]
  rfl

/-! ## Links -/

structure IsLinkQuery (query : JsString) : Prop where
  isQuery : isQuery query = true
  printable : query.all isPrintable = true
  noFragment : unit '#' ∉ query
  noBackslash : unit '\\' ∉ query

theorem mem_pairText {entry : JsString × JsString}
    (hmem : code ∈ pairText entry) : isSeparator code = false ∨ code ∈ units "&=" := by
  rcases mem_append.mp hmem with hmem | hmem
  · exact .inl (not_separator_of_mem hmem)
  · rcases mem_cons.mp hmem with rfl | hmem
    · exact .inr (by decide)
    · exact .inl (not_separator_of_mem hmem)

theorem isEscaped_pairText (entry : JsString × JsString) (rest : JsString) :
    isEscaped isQueryUnit (pairText entry ++ rest) = isEscaped isQueryUnit rest := by
  have hpercent : unit '=' ≠ unit '%' := by decide
  have hclass : isQueryUnit (unit '=') = true := by decide
  rw [pairText, append_assoc, isEscaped_encodeFormComponent, cons_append,
    isEscaped_cons hpercent hclass, isEscaped_encodeFormComponent]

/-- The induction is on the entries; the last one has no separator after it. -/
theorem encodeQuery_units (entries : List (JsString × JsString)) :
    isEscaped isQueryUnit (encodeQuery entries) = true ∧
      ∀ code ∈ encodeQuery entries, isSeparator code = false ∨ code ∈ units "&=" := by
  rw [encodeQuery_eq]
  induction entries with
  | nil => exact ⟨rfl, fun code hmem => absurd hmem not_mem_nil⟩
  | cons entry entries ih =>
    cases entries with
    | nil =>
      rw [map_singleton, intercalate_singleton]
      have hescaped := isEscaped_pairText entry []
      rw [append_nil] at hescaped
      exact ⟨hescaped, fun code hmem => mem_pairText hmem⟩
    | cons other entries =>
      have hpercent : unit '&' ≠ unit '%' := by decide
      have hclass : isQueryUnit (unit '&') = true := by decide
      rw [map_cons, map_cons, intercalate_cons_cons, ← map_cons,
        append_assoc]
      constructor
      · rw [isEscaped_pairText, singleton_append, isEscaped_cons hpercent hclass]
        exact ih.1
      · intro code hmem
        rcases mem_append.mp hmem with hmem | hmem
        · exact mem_pairText hmem
        · rcases mem_cons.mp hmem with rfl | hmem
          · exact .inr (by decide)
          · exact ih.2 code hmem

theorem encodeQuery_ne_nil (hentries : entries ≠ []) : encodeQuery entries ≠ [] := by
  obtain ⟨entry, others, rfl⟩ := exists_cons_of_ne_nil hentries
  rw [encodeQuery_eq]
  cases others with
  | nil =>
    rw [map_singleton, intercalate_singleton]
    exact pairText_ne_nil entry
  | cons other others =>
    rw [map_cons, map_cons, intercalate_cons_cons, append_assoc]
    exact append_ne_nil_of_left_ne_nil (pairText_ne_nil entry) _

theorem isLinkQuery_encodeQuery (hentries : entries ≠ []) : IsLinkQuery (encodeQuery entries) := by
  obtain ⟨hescaped, hunits⟩ := encodeQuery_units entries
  have hplain {code : UInt16} (hmem : code ∈ encodeQuery entries) :
      isPrintable code = true ∧ code ∉ units "#\\" := by
    rcases hunits code hmem with hcode | hcode
    · rw [isSeparator, Bool.or_eq_false_iff, Bool.not_eq_false', decide_eq_false_iff_not] at hcode
      refine ⟨hcode.1, fun hmark => hcode.2 ?_⟩
      exact mem_append_left (units "&=") hmark
    · have htext : units "&=" = [unit '&', unit '='] := by decide
      rw [htext, mem_cons, mem_singleton] at hcode
      rcases hcode with rfl | rfl
      · exact ⟨by decide, by decide⟩
      · exact ⟨by decide, by decide⟩
  refine ⟨?_, all_eq_true.mpr fun code hmem => (hplain hmem).1, ?_, ?_⟩
  · rw [Url.isQuery, hescaped, Bool.and_true]
    exact decide_eq_true (encodeQuery_ne_nil hentries)
  · exact fun hmem => (hplain hmem).2 (by decide)
  · exact fun hmem => (hplain hmem).2 (by decide)

theorem splitScheme_append {rest : JsString} (hstop : isSchemeUnit stop = false)
    {scheme : JsString × JsString} (hok : splitScheme input = .ok scheme) :
    splitScheme (input ++ stop :: rest) = .ok (scheme.1, scheme.2 ++ stop :: rest) := by
  rw [splitScheme] at hok ⊢
  rw [takeWhile_append_stop _ hstop, dropWhile_append_stop _ hstop]
  split at hok
  · rename_i hscheme
    obtain rfl := Except.ok.inj hok
    have hlen : 3 ≤ (input.dropWhile isSchemeUnit).length := by
      have hthree := congrArg List.length hscheme.2
      rw [length_take] at hthree
      have hunits : (units "://").length = 3 := by decide
      omega
    rw [if_pos, drop_append_of_le_length hlen]
    · rfl
    · rwa [List.take_append_of_le_length hlen]
  · cases hok

theorem parseUrl_append_query {query : JsString}
    (hok : parseUrl input = .ok url) (hinput : unit '?' ∉ input) (hquery : IsLinkQuery query) :
    parseUrl (input ++ unit '?' :: query) = .ok { url with search := unit '?' :: query } := by
  rw [parseUrl] at hok
  split at hok
  · cases hok
  rename_i hvalid
  rw [not_or, not_or, not_not] at hvalid
  obtain ⟨scheme, hscheme, hok⟩ := bind_eq_ok_iff.mp hok
  dsimp only at hok
  split at hok
  · cases hok
  rename_i hprotocol
  obtain ⟨address, haddr, hok⟩ := bind_eq_ok_iff.mp hok
  obtain ⟨pathname, hpathname, hok⟩ := bind_eq_ok_iff.mp hok
  obtain ⟨search, hsearch, hok⟩ := bind_eq_ok_iff.mp hok
  obtain rfl := Except.ok.inj hok
  have hvalid' : ¬ (¬ (input ++ unit '?' :: query).all isPrintable = true ∨
      unit '#' ∈ input ++ unit '?' :: query ∨ unit '\\' ∈ input ++ unit '?' :: query) := by
    have hmark : isPrintable (unit '?') = true := by decide
    have hfragment : unit '#' ≠ unit '?' := by decide
    have hbackslash : unit '\\' ≠ unit '?' := by decide
    rw [not_or, not_or, not_not, all_append, all_cons, hvalid.1, hmark,
      hquery.printable, mem_append, mem_append, mem_cons, mem_cons]
    exact ⟨rfl, fun hmem => hmem.elim hvalid.2.1 fun hmem =>
        hmem.elim hfragment hquery.noFragment,
      fun hmem => hmem.elim hvalid.2.2 fun hmem => hmem.elim hbackslash hquery.noBackslash⟩
  -- No unit after the scheme ends the path.
  have hpath : splitAtUnit (fun code => code = unit '?')
      (splitAtUnit (fun code => code = unit '/' || code = unit '?') scheme.2).2 =
        ((splitAtUnit (fun code => code = unit '/' || code = unit '?') scheme.2).2, []) := by
    apply splitAtUnit_eq_self
    intro code hmem
    rw [decide_eq_false_iff_not]
    rintro rfl
    have hscheme' : unit '?' ∈ scheme.2 := (dropWhile_sublist _).mem hmem
    apply hinput
    rw [splitScheme] at hscheme
    split at hscheme
    · obtain rfl := Except.ok.inj hscheme
      exact (dropWhile_sublist _).mem ((drop_sublist _ _).mem hscheme')
    · cases hscheme
  rw [hpath] at hpathname
  rw [parseUrl, if_neg hvalid', splitScheme_append (by decide) hscheme, ok_bind]
  dsimp only
  rw [if_neg hprotocol, splitAtUnit_append (by decide), splitAtUnit_append (by decide), hpath]
  dsimp only
  rw [haddr, ok_bind, hpathname, ok_bind, nil_append, head?_cons, List.tail_cons]
  change (parseSearch (some query) >>= _) = _
  rw [parseSearch, if_pos hquery.isQuery, pure_eq_ok, ok_bind]
  rfl

theorem parseUrl_ne_ok (hinput : unit ':' ∉ input) (url : ParsedUrl) :
    parseUrl input ≠ .ok url := by
  intro hok
  rw [parseUrl] at hok
  split at hok
  · cases hok
  obtain ⟨scheme, hscheme, -⟩ := bind_eq_ok_iff.mp hok
  rw [splitScheme] at hscheme
  split at hscheme
  · rename_i hstart
    apply hinput
    have hmem : unit ':' ∈ (input.dropWhile isSchemeUnit).take 3 := by
      rw [hstart.2]
      decide
    exact (dropWhile_sublist _).mem ((List.take_sublist _ _).mem hmem)
  · cases hscheme

end SignalProtocol.Url

namespace SignalProtocol.Safety

open JsString Results Url

variable {value : JsString} (contextType : ContextType)

/-- The URLs of a configuration, neither of them with a query. -/
structure VerifyLinkConfig.Valid (config : VerifyLinkConfig) : Prop where
  base_ok : ∃ url, parseUrl config.baseUrl = .ok url
  base_noQuery : unit '?' ∉ config.baseUrl
  scheme_ok : ∃ url, parseUrl config.schemeUrl = .ok url
  scheme_noQuery : unit '?' ∉ config.schemeUrl

def IsLinkText (text : JsString) : Prop := text ≠ [] ∧ text.head? ≠ some 0xfeff

structure VerifyUrlParams.Readable (params : VerifyUrlParams) : Prop where
  generator : IsLinkText params.generatorUserId
  other : IsLinkText params.otherUserId
  context : IsLinkText params.contextId

/-- The texts that carry the data of a code. -/
inductive Carries (config : VerifyLinkConfig) (qrData : JsString) : JsString → Prop where
  | raw : Carries config qrData qrData
  | url (params : VerifyUrlParams) (hreadable : params.Readable) (hdata : params.qrData = qrData) :
      Carries config qrData (generateVerifyUrl params config)
  | schemeUrl (params : VerifyUrlParams) (hreadable : params.Readable)
      (hdata : params.qrData = qrData) :
      Carries config qrData (generateVerifySchemeUrl params config)

theorem toWellFormed_units (text : String) : toWellFormed (units text) = units text := by
  rw [toWellFormed, units, ofString, toChars_ofChars]

theorem toWellFormed_ne_nil {text : JsString} (htext : text ≠ []) : toWellFormed text ≠ [] := by
  intro hnil
  have hchars := toChars_toWellFormed text
  rw [hnil] at hchars
  apply htext
  rcases text with _ | ⟨first, _ | ⟨second, rest⟩⟩
  · rfl
  · cases hchars
  · rw [toChars.eq_3] at hchars
    split at hchars
    · cases hchars
    · cases hchars

variable {entries : List (JsString × JsString)}

theorem filter_map_of_mem {name : JsString}
    (hnames : (entries.map Prod.fst).Nodup) (hmem : (name, value) ∈ entries) :
    (entries.filter fun entry => entry.1 = name).map Prod.snd = [value] := by
  induction entries with
  | nil => exact absurd hmem not_mem_nil
  | cons entry entries ih =>
    rw [map_cons, nodup_cons] at hnames
    by_cases hname : entry.1 = name
    · have hothers : entries.filter (fun entry => entry.1 = name) = [] := by
        rw [filter_eq_nil_iff]
        intro other hother hsame
        apply hnames.1
        rw [hname, ← of_decide_eq_true hsame]
        exact mem_map_of_mem hother
      rcases mem_cons.mp hmem with rfl | hmem
      · simp [hothers]
      · apply absurd _ hnames.1
        rw [hname]
        exact mem_map_of_mem (f := Prod.fst) hmem
    · rw [filter_cons_of_neg (by simpa using hname)]
      rcases mem_cons.mp hmem with rfl | hmem
      · exact absurd rfl hname
      · exact ih hnames.2 hmem

theorem singleValue_of_mem {target : ParsedUrl}
    {name : String} (htarget : target.search = unit '?' :: encodeQuery entries)
    (hmarks : ∀ entry ∈ entries, entry.1.head? ≠ some 0xfeff ∧ entry.2.head? ≠ some 0xfeff)
    (hnames : (entries.map fun entry => toWellFormed entry.1).Nodup)
    (hmem : (units name, value) ∈ entries) (hval : value ≠ []) :
    singleValue target name = some (toWellFormed value) := by
  have hpairs : ((entries.map fun entry => (toWellFormed entry.1, toWellFormed entry.2)).filter
      fun pair => pair.1 = units name).map Prod.snd = [toWellFormed value] := by
    apply filter_map_of_mem
    · rwa [map_map]
    · have hpair := mem_map_of_mem
        (f := fun entry => (toWellFormed entry.1, toWellFormed entry.2)) hmem
      rwa [toWellFormed_units] at hpair
  rw [singleValue, queryValues_encodeQuery htarget (ne_nil_of_mem hmem) hmarks, hpairs]
  exact if_neg (toWellFormed_ne_nil hval)

theorem urlSafe_facts {value : ℕ} (hval : value < 64) :
    ofChar (Char.ofNat (urlSafeUnit (base64Unit value)).toNat) = [urlSafeUnit (base64Unit value)] ∧
      urlSafeUnit (base64Unit value) ≠ 0xfeff ∧ isBase64Unit (base64Unit value) = true ∧
      base64Unit value ≠ unit ':' := by
  have hall : ∀ index : Fin 64,
      ofChar (Char.ofNat (urlSafeUnit (base64Unit index)).toNat) =
        [urlSafeUnit (base64Unit index)] ∧
      urlSafeUnit (base64Unit index) ≠ 0xfeff ∧ isBase64Unit (base64Unit index) = true ∧
      base64Unit index ≠ unit ':' := by decide +kernel
  exact hall ⟨value, hval⟩

theorem toWellFormed_base64ToUrlSafe (bytes : Bytes) :
    toWellFormed (base64ToUrlSafe (base64Units bytes)) = base64ToUrlSafe (base64Units bytes) := by
  have hchars : base64ToUrlSafe (base64Units bytes) = ofChars ((base64Sextets bytes).map
      fun value => Char.ofNat (urlSafeUnit (base64Unit value)).toNat) := by
    have hlt := base64Sextets_lt bytes
    rw [base64ToUrlSafe_base64Units]
    generalize base64Sextets bytes = values at hlt ⊢
    induction values with
    | nil => rfl
    | cons value values ih =>
      obtain ⟨hval, hvals⟩ := forall_mem_cons.mp hlt
      rw [map_cons, map_cons, ofChars, flatMap_cons, (urlSafe_facts hval).1,
        singleton_append, ih hvals]
      rfl
  rw [hchars, toWellFormed, toChars_ofChars]

theorem isLinkText_base64ToUrlSafe {bytes : Bytes} (hbytes : bytes ≠ []) :
    IsLinkText (base64ToUrlSafe (base64Units bytes)) := by
  have hlt := base64Sextets_lt bytes
  have hlen := length_base64Sextets bytes
  have hpos := length_pos_iff.mpr hbytes
  rw [base64ToUrlSafe_base64Units]
  cases hsextets : base64Sextets bytes with
  | nil =>
    rw [hsextets, length_nil] at hlen
    omega
  | cons value values =>
    rw [hsextets] at hlt
    obtain ⟨hval, -⟩ := forall_mem_cons.mp hlt
    refine ⟨cons_ne_nil _ _, ?_⟩
    rw [map_cons, head?_cons, Ne, Option.some.injEq]
    exact (urlSafe_facts hval).2.1

theorem ContextType.parse_text :
    parseContextType contextType.text = some contextType := by
  cases contextType with
  | dm => decide
  | dynamic => decide

theorem ContextType.isLinkText : IsLinkText contextType.text := by
  cases contextType with
  | dm => exact ⟨by decide, by decide⟩
  | dynamic => exact ⟨by decide, by decide⟩

section

variable {config : VerifyLinkConfig} {target : JsString} {url : ParsedUrl}
  {params : VerifyUrlParams} {bytes : Bytes}

theorem asVerifyTarget_append (hurl : parseUrl target = .ok url) (htarget : unit '?' ∉ target)
    (hconfig : target = config.baseUrl ∨ target = config.schemeUrl) (params : VerifyUrlParams) :
    asVerifyTarget (target ++ unit '?' :: encodeParams params) config =
      some { url with search := unit '?' :: encodeParams params } := by
  have hmatches : matchesTarget { url with search := unit '?' :: encodeParams params } target =
      true := by
    simp [matchesTarget, hurl]
  have hquery : IsLinkQuery (encodeParams params) := isLinkQuery_encodeQuery (cons_ne_nil _ _)
  rw [asVerifyTarget, parseUrl_append_query hurl htarget hquery]
  dsimp only
  rw [if_pos]
  rw [Bool.or_eq_true]
  rcases hconfig with hbase | hscheme
  · exact .inl (hbase ▸ hmatches)
  · exact .inr (hscheme ▸ hmatches)

theorem extractQrData_link (hurl : parseUrl target = .ok url) (htarget : unit '?' ∉ target)
    (hconfig : target = config.baseUrl ∨ target = config.schemeUrl) (hreadable : params.Readable)
    (hdata : params.qrData = base64Units bytes) (hbytes : bytes ≠ []) :
    extractQrData (target ++ unit '?' :: encodeParams params) config =
      some (base64Units bytes) := by
  have hverify := asVerifyTarget_append hurl htarget hconfig params
  have hqrData := isLinkText_base64ToUrlSafe hbytes
  rw [← hdata] at hqrData
  have hctx := params.contextType.isLinkText
  have hmarks : ∀ entry ∈ [(units "g", params.generatorUserId), (units "u", params.otherUserId),
      (units "t", params.contextType.text), (units "c", params.contextId),
      (units "d", base64ToUrlSafe params.qrData)],
      entry.1.head? ≠ some 0xfeff ∧ entry.2.head? ≠ some 0xfeff := by
    simp only [forall_mem_cons]
    exact ⟨⟨by decide, hreadable.generator.2⟩, ⟨by decide, hreadable.other.2⟩,
      ⟨by decide, hctx.2⟩, ⟨by decide, hreadable.context.2⟩, ⟨by decide, hqrData.2⟩,
      fun entry hmem => absurd hmem not_mem_nil⟩
  have hnames : [toWellFormed (units "g"), toWellFormed (units "u"), toWellFormed (units "t"),
      toWellFormed (units "c"), toWellFormed (units "d")].Nodup := by decide
  have hval (name : String) {value : JsString}
      (hmem : (units name, value) ∈ [(units "g", params.generatorUserId),
        (units "u", params.otherUserId), (units "t", params.contextType.text),
        (units "c", params.contextId), (units "d", base64ToUrlSafe params.qrData)])
      (hlink : IsLinkText value) :
      singleValue { url with search := unit '?' :: encodeParams params } name =
        some (toWellFormed value) :=
    singleValue_of_mem rfl hmarks hnames hmem hlink.1
  have hparse : parseVerifyUrl (target ++ unit '?' :: encodeParams params) config = some
      { generatorUserId := toWellFormed params.generatorUserId
        otherUserId := toWellFormed params.otherUserId
        contextType := params.contextType
        contextId := toWellFormed params.contextId
        qrData := base64Units bytes } := by
    have hcontextText : toWellFormed params.contextType.text = params.contextType.text := by
      cases params.contextType with
      | dm => exact toWellFormed_units "dm"
      | dynamic => exact toWellFormed_units "dynamic"
    have hback := urlSafeToBase64_base64ToUrlSafe bytes
    rw [parseVerifyUrl, hverify]
    simp only [Option.bind_eq_bind, Option.bind_some]
    rw [hval "g" (by simp) hreadable.generator, Option.bind_some,
      hval "u" (by simp) hreadable.other, Option.bind_some,
      hval "t" (by simp) hctx, Option.bind_some,
      hval "c" (by simp) hreadable.context, Option.bind_some,
      hval "d" (by simp) hqrData, Option.bind_some, hcontextText,
      ContextType.parse_text, Option.bind_some, hdata, toWellFormed_base64ToUrlSafe, hback]
    rfl
  have hisVerify : isVerifyUrl (target ++ unit '?' :: encodeParams params) config = true := by
    rw [isVerifyUrl, hverify]
    rfl
  rw [extractQrData, if_pos hisVerify, hparse]
  rfl

/-- A bare text is no URL, and its padding says that it is not the URL-safe form. -/
theorem extractQrData_raw (config : VerifyLinkConfig) (hlen : 7 ≤ bytes.length)
    (hpad : bytes.length % 3 ≠ 0) :
    extractQrData (base64Units bytes) config = some (base64Units bytes) := by
  have hcolon : unit ':' ∉ base64Units bytes := by
    intro hmem
    rcases mem_base64Units hmem with ⟨value, hval, heq⟩ | heq
    · exact (urlSafe_facts hval).2.2.2 heq.symm
    · exact absurd heq (by decide)
  have hverify : ¬ isVerifyUrl (base64Units bytes) config = true := by
    rw [isVerifyUrl, asVerifyTarget]
    cases hparse : parseUrl (base64Units bytes) with
    | error error => simp
    | ok url => exact absurd hparse (parseUrl_ne_ok hcolon url)
  have hmem : paddingUnit ∈ base64Units bytes := by
    rw [base64Units_eq_append]
    apply mem_append_right
    rw [mem_replicate]
    exact ⟨by omega, rfl⟩
  have hurlSafe : ¬ ((base64Units bytes).all isUrlSafeUnit = true ∧
      10 ≤ (base64Units bytes).length) := by
    rintro ⟨hall, -⟩
    exact absurd (all_eq_true.mp hall _ hmem) (by decide)
  have hbase64 : (base64Units bytes).all isBase64Unit = true ∧ 10 ≤ (base64Units bytes).length := by
    rw [length_base64Units]
    refine ⟨all_eq_true.mpr fun code hcode => ?_, by omega⟩
    rcases mem_base64Units hcode with ⟨value, hval, rfl⟩ | rfl
    · exact (urlSafe_facts hval).2.2.1
    · decide
  rw [extractQrData, if_neg hverify, if_neg hurlSafe, if_pos hbase64]

/-- The scanner finds the data, whatever carries it. -/
theorem extractQrData_carries (hconfig : config.Valid) (hlen : 7 ≤ bytes.length)
    (hpad : bytes.length % 3 ≠ 0) {text : JsString}
    (htext : Carries config (base64Units bytes) text) :
    extractQrData text config = some (base64Units bytes) := by
  have hbytes : bytes ≠ [] := by
    rintro rfl
    exact absurd hlen (by decide)
  cases htext with
  | raw => exact extractQrData_raw config hlen hpad
  | url params hreadable hdata =>
    obtain ⟨url, hurl⟩ := hconfig.base_ok
    exact extractQrData_link hurl hconfig.base_noQuery (.inl rfl) hreadable hdata hbytes
  | schemeUrl params hreadable hdata =>
    obtain ⟨url, hurl⟩ := hconfig.scheme_ok
    exact extractQrData_link hurl hconfig.scheme_noQuery (.inr rfl) hreadable hdata hbytes

end

end SignalProtocol.Safety
