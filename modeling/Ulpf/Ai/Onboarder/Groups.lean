import Ulpf.Lib.Pattern
import Ulpf.Ai.Onboarder.RoundTrip

namespace ulpf_ai.onboarder.Onboarder

/-- What the loop over the columns takes a column for. -/
inductive ColumnKind where
  | same
  | ip_port
  | ip
  | port
  | protocol
  | action
  | timestamp
  | other
  deriving DecidableEq, Repr

namespace ColumnKind

/-- A column with an address, alone or with a port. -/
def isAddress (kind : ColumnKind) : Bool := kind = ip_port || kind = ip

/-- The groups that a column names, and the counters after it. -/
def groups : ColumnKind → (ip_count port_count : Nat) → List String × Nat × Nat
  | ip_port, 0, ports => (["src_ip", "src_port"], 1, ports + 1)
  | ip_port, 1, ports => (["dst_ip", "dst_port"], 2, ports + 1)
  | ip_port, ips + 2, ports => ([], ips + 2, ports)
  | ip, 0, ports => (["src_ip"], 1, ports)
  | ip, 1, ports => (["dst_ip"], 2, ports)
  | ip, ips + 2, ports => ([], ips + 2, ports)
  | port, ips, 0 => (["src_port"], ips, 1)
  | port, ips, 1 => (["dst_port"], ips, 2)
  | port, ips, ports + 2 => ([], ips, ports + 2)
  | protocol, ips, ports => (["protocol"], ips, ports)
  | action, ips, ports => (["action"], ips, ports)
  | timestamp, ips, ports => (["timestamp"], ips, ports)
  | same, ips, ports => ([], ips, ports)
  | other, ips, ports => ([], ips, ports)

/-- The groups of the columns that come behind the counters. -/
def allGroups : List ColumnKind → Nat → Nat → List String
  | [], _, _ => []
  | kind :: kinds, ip_count, port_count =>
    let (names, ip_count, port_count) := kind.groups ip_count port_count
    names ++ allGroups kinds ip_count port_count

/-- The address column with the given number. -/
def address (k : Nat) (kinds : List ColumnKind) : Option ColumnKind :=
  (kinds.filter isAddress)[k]?

/-- How many port columns come before the address column with the given number. -/
def portsBefore : Nat → List ColumnKind → Nat
  | _, [] => 0
  | 0, kind :: kinds =>
    if kind.isAddress then 0 else portsBefore 0 kinds + if kind = port then 1 else 0
  | k + 1, kind :: kinds =>
    if kind.isAddress then portsBefore k kinds
    else portsBefore (k + 1) kinds + if kind = port then 1 else 0

/-- The columns after which no group has its name twice. An address with a port takes the port names
    of its side whatever port columns have taken before, and leaves the other to those behind it. -/
structure Unrepeated (kinds : List ColumnKind) : Prop where
  protocol : kinds.count protocol ≤ 1
  action : kinds.count action ≤ 1
  timestamp : kinds.count timestamp ≤ 1
  first : address 0 kinds = some ip_port → portsBefore 0 kinds = 0
  second : address 1 kinds = some ip_port →
    if address 0 kinds = some ip_port then portsBefore 1 kinds = 0
    else portsBefore 1 kinds = 1 ∨ kinds.count port = 0

end ColumnKind

open ColumnKind

section

variable (crates : OnboarderCrates)

def column_kind (col : List (List Char)) : ColumnKind :=
  if all_same col then .same
  else if col.all (is_match crates.toCrates re_ip_port) then .ip_port
  else if col.all (is_match crates.toCrates re_ip) then .ip
  else if col.all (is_match crates.toCrates re_port) then .port
  else if col.all (is_match crates.toCrates re_proto) then .protocol
  else if col.all (is_match crates.toCrates re_action) then .action
  else if col.all (is_match crates.toCrates re_timestamp) then .timestamp
  else .other

def columnKinds (samples : List (List Char)) : List ColumnKind :=
  (columns samples).map (column_kind crates)

end

section

variable {crates : OnboarderCrates}

theorem names_regex_escape (text : List Char) : regex.Names (regex_escape text) [] := by
  refine regex.names_flatMap fun c _ => ?_
  split
  · exact regex.names_escaped c
  · rename_i hmeta
    apply regex.names_singleton
    refine ⟨?_, ?_, ?_⟩ <;> rintro rfl <;> exact hmeta (by decide)

theorem names_IP : regex.Names IP [] := fun _ => rfl

theorem names_PORT : regex.Names PORT [] := fun _ => rfl

theorem names_capture {name : String} {pattern : List Char} {names : List String}
    (hname : name.toList.all (fun c => regex.Plain c ∧ c ≠ '>') = true)
    (hpattern : regex.Names pattern names) :
    regex.Names (capture name pattern) (name :: names) := by
  have hchars : ∀ c ∈ name.toList, regex.Plain c ∧ c ≠ '>' := by
    intro c hc
    exact of_decide_eq_true (List.all_eq_true.mp hname c hc)
  have hgroup := regex.names_group hchars hpattern
  rw [show capture name pattern =
    '(' :: '?' :: 'P' :: '<' :: (name.toList ++ '>' :: (pattern ++ [')'])) by simp [capture, str.lit]]
  exact hgroup

/-- The classes that the unnumbered columns capture. -/
theorem names_class : regex.Names (str.lit "[a-zA-Z0-9]+") [] ∧
    regex.Names (str.lit "[a-zA-Z]+") [] ∧ regex.Names (str.lit "\\S+") [] :=
  ⟨fun _ => rfl, fun _ => rfl, fun _ => rfl⟩

/-- An address and a port with a delimiter between them. -/
theorem names_endpoint {ip port : List Char} {names names' : List String} (delimiter : Bool)
    (hip : regex.Names ip names) (hport : regex.Names port names') :
    regex.Names (ip ++ (if delimiter then [':'] else ['/']) ++ port) (names ++ names') := by
  have hdelimiter : regex.Names (if delimiter then [':'] else ['/']) [] := by
    cases delimiter <;> exact regex.names_singleton (by decide)
  simpa using (hip.append hdelimiter).append hport

variable (crates) in
/-- The pattern of a column names the groups of its kind, and moves the counters as they say. -/
theorem column_pattern_spec (col : List (List Char)) (ip_count port_count : Nat) :
    regex.Names (column_pattern crates col ip_count port_count).1
        ((column_kind crates col).groups ip_count port_count).1 ∧
      (column_pattern crates col ip_count port_count).2 =
        ((column_kind crates col).groups ip_count port_count).2 := by
  have hsrc_ip : regex.Names (capture "src_ip" IP) ["src_ip"] := names_capture (by decide) names_IP
  have hdst_ip : regex.Names (capture "dst_ip" IP) ["dst_ip"] := names_capture (by decide) names_IP
  have hsrc_port : regex.Names (capture "src_port" PORT) ["src_port"] :=
    names_capture (by decide) names_PORT
  have hdst_port : regex.Names (capture "dst_port" PORT) ["dst_port"] :=
    names_capture (by decide) names_PORT
  unfold column_pattern column_kind
  dsimp only
  split
  · exact ⟨names_regex_escape _, rfl⟩
  split
  · match ip_count with
    | 0 => exact ⟨names_endpoint _ hsrc_ip hsrc_port, rfl⟩
    | 1 => exact ⟨names_endpoint _ hdst_ip hdst_port, rfl⟩
    | _ + 2 => exact ⟨names_endpoint _ names_IP names_PORT, rfl⟩
  split
  · match ip_count with
    | 0 => exact ⟨hsrc_ip, rfl⟩
    | 1 => exact ⟨hdst_ip, rfl⟩
    | _ + 2 => exact ⟨names_IP, rfl⟩
  split
  · match port_count with
    | 0 => exact ⟨hsrc_port, rfl⟩
    | 1 => exact ⟨hdst_port, rfl⟩
    | _ + 2 => exact ⟨fun _ => rfl, rfl⟩
  obtain ⟨halphanumeric, halpha, htext⟩ := names_class
  split
  · exact ⟨names_capture (by decide) halphanumeric, rfl⟩
  split
  · exact ⟨names_capture (by decide) halpha, rfl⟩
  split
  · exact ⟨names_capture (by decide) htext, rfl⟩
  · exact ⟨fun _ => rfl, rfl⟩

variable (crates) in
theorem column_patterns_names (cols : List (List (List Char))) (ip_count port_count : Nat) :
    ∃ names, List.Forall₂ regex.Names (column_patterns crates cols ip_count port_count) names ∧
      names.flatten = allGroups (cols.map (column_kind crates)) ip_count port_count := by
  induction cols generalizing ip_count port_count with
  | nil => exact ⟨[], .nil, rfl⟩
  | cons col cols ih =>
    obtain ⟨hnames, hcounts⟩ := column_pattern_spec crates col ip_count port_count
    obtain ⟨names, hparts, hflatten⟩ := ih (column_pattern crates col ip_count port_count).2.1
      (column_pattern crates col ip_count port_count).2.2
    refine ⟨_ :: names, .cons hnames hparts, ?_⟩
    rw [List.flatten_cons, hflatten, hcounts]
    rfl

/-- The groups of the pattern are those of its columns. -/
theorem groupNames_positional {samples : List (List Char)} {pattern : List Char}
    (h : synthesize_positional_regex crates samples = .ok pattern) :
    regex.groupNames false pattern = allGroups (columnKinds crates samples) 0 0 := by
  unfold synthesize_positional_regex at h
  split at h
  · cases h
  cases h
  obtain ⟨names, hparts, hflatten⟩ := column_patterns_names crates (columns samples) 0 0
  have hstart : regex.Names ['^'] [] := regex.names_singleton (by decide)
  have hsep : regex.Names (str.lit "\\s+") [] := fun _ => rfl
  have hend : regex.Names (str.lit "(?:.*)$") [] := fun _ => rfl
  rw [((hstart.append (regex.names_intercalate hsep hparts)).append hend).eq, hflatten]
  simp [columnKinds]

end

namespace ColumnKind

@[simp]
theorem address_nil (k : Nat) : address k [] = none := rfl

@[simp]
theorem address_zero_cons (kind : ColumnKind) (kinds : List ColumnKind) :
    address 0 (kind :: kinds) = if kind.isAddress then some kind else address 0 kinds := by
  unfold address
  rw [List.filter_cons]
  split <;> rfl

@[simp]
theorem address_succ_cons (k : Nat) (kind : ColumnKind) (kinds : List ColumnKind) :
    address (k + 1) (kind :: kinds) =
      if kind.isAddress then address k kinds else address (k + 1) kinds := by
  unfold address
  rw [List.filter_cons]
  split <;> rfl

theorem portsBefore_le_count (k : Nat) (kinds : List ColumnKind) :
    portsBefore k kinds ≤ kinds.count port := by
  induction kinds generalizing k with
  | nil => cases k <;> exact Nat.zero_le _
  | cons kind kinds ih =>
    have hih := ih k
    rw [List.count_cons]
    cases k with
    | zero =>
      rw [portsBefore]
      grind
    | succ k =>
      have hnext := ih k
      rw [portsBefore]
      grind

section

variable (kinds : List ColumnKind) (ip_count port_count : Nat)

/-- The seven names of groups. -/
theorem mem_allGroups {name : String} (h : name ∈ allGroups kinds ip_count port_count) :
    name ∈ ["src_ip", "dst_ip", "src_port", "dst_port", "protocol", "action", "timestamp"] := by
  induction kinds generalizing ip_count port_count with
  | nil => cases h
  | cons kind kinds ih =>
    rcases List.mem_append.mp h with hname | hname
    · fun_cases groups kind ip_count port_count <;> simp_all <;> tauto
    · exact ih _ _ hname

/-- Columns of a protocol, an action or a time always take the same name. -/
theorem count_fixed :
    (allGroups kinds ip_count port_count).count "protocol" = kinds.count protocol ∧
    (allGroups kinds ip_count port_count).count "action" = kinds.count action ∧
    (allGroups kinds ip_count port_count).count "timestamp" = kinds.count timestamp := by
  induction kinds generalizing ip_count port_count with
  | nil => exact ⟨rfl, rfl, rfl⟩
  | cons kind kinds ih =>
    simp only [allGroups, List.count_append, ih]
    fun_cases groups kind ip_count port_count <;> simp [Nat.add_comm]

/-- The addresses are numbered by one counter, which never takes a name again. -/
theorem count_ip_le :
    (allGroups kinds ip_count port_count).count "src_ip" ≤ (if ip_count = 0 then 1 else 0) ∧
    (allGroups kinds ip_count port_count).count "dst_ip" ≤ if ip_count ≤ 1 then 1 else 0 := by
  induction kinds generalizing ip_count port_count with
  | nil => simp [allGroups]
  | cons kind kinds ih =>
    have hih := ih (kind.groups ip_count port_count).2.1 (kind.groups ip_count port_count).2.2
    simp only [allGroups, List.count_append]
    fun_cases groups kind ip_count port_count <;> simp_all [groups]

/-- Behind an address only the first port column may take the name of the source port. -/
theorem count_src_port_le (ips : Nat) :
    (allGroups kinds (ips + 1) port_count).count "src_port" ≤ if port_count = 0 then 1 else 0 := by
  induction kinds generalizing ips port_count with
  | nil => simp [allGroups]
  | cons kind kinds ih =>
    rw [allGroups]
    cases kind with
    | port =>
      rcases port_count with _ | _ | port_count
      · simpa [groups] using ih 1 ips
      · simpa [groups] using ih 2 ips
      · simpa [groups] using ih (port_count + 2) ips
    | ip_port =>
      rcases ips with _ | ips
      · have hnext := ih (port_count + 1) 1
        simpa [groups] using hnext.trans (Nat.zero_le _)
      · simpa [groups] using ih port_count (ips + 1)
    | ip =>
      rcases ips with _ | ips
      · simpa [groups] using ih port_count 1
      · simpa [groups] using ih port_count (ips + 1)
    | _ => simpa [groups] using ih port_count ips

/-- A first address with a port takes it as well. -/
theorem count_src_port_of_ip_port (h : address 0 kinds = some ip_port) :
    (allGroups kinds 0 port_count).count "src_port" =
      1 + if port_count = 0 ∧ portsBefore 0 kinds ≠ 0 then 1 else 0 := by
  induction kinds generalizing port_count with
  | nil => cases h
  | cons kind kinds ih =>
    rw [allGroups]
    cases kind with
    | port =>
      have hih := fun ports => ih ports h
      rcases port_count with _ | _ | port_count <;> simp [groups, hih, portsBefore, isAddress]
    | ip_port =>
      have hnext := count_src_port_le kinds (port_count + 1) 0
      simpa [groups, portsBefore, isAddress] using hnext
    | ip => cases h
    | _ => simpa [groups, portsBefore, isAddress] using ih port_count h

theorem count_src_port_of_ne (h : address 0 kinds ≠ some ip_port) :
    (allGroups kinds 0 port_count).count "src_port" ≤ if port_count = 0 then 1 else 0 := by
  induction kinds generalizing port_count with
  | nil => simp [allGroups]
  | cons kind kinds ih =>
    rw [allGroups]
    cases kind with
    | port =>
      rcases port_count with _ | _ | port_count
      · simpa [groups] using ih 1 h
      · simpa [groups] using ih 2 h
      · simpa [groups] using ih (port_count + 2) h
    | ip_port => exact absurd rfl h
    | ip => simpa [groups] using count_src_port_le kinds port_count 0
    | _ => simpa [groups] using ih port_count h

theorem count_src_port_le_one_iff :
    (allGroups kinds 0 0).count "src_port" ≤ 1 ↔
      (address 0 kinds = some ip_port → portsBefore 0 kinds = 0) := by
  by_cases haddress : address 0 kinds = some ip_port
  · rw [count_src_port_of_ip_port kinds 0 haddress]
    by_cases hbefore : portsBefore 0 kinds = 0 <;> simp [haddress, hbefore]
  · exact iff_of_true (count_src_port_of_ne kinds 0 haddress) fun h => absurd h haddress

/-- Behind two addresses only the second port column takes the name of the destination port. -/
theorem count_dst_port_two (ips : Nat) :
    (allGroups kinds (ips + 2) port_count).count "dst_port" =
      if port_count ≤ 1 ∧ 2 ≤ port_count + kinds.count port then 1 else 0 := by
  induction kinds generalizing port_count with
  | nil => simp [allGroups]
  | cons kind kinds ih =>
    rw [allGroups]
    cases kind with
    | port =>
      rcases port_count with _ | _ | port_count <;>
        simp only [groups, ih, List.count_append, List.count_cons_self] <;> grind
    | _ => simp [groups, ih]

/-- Behind one address the next may take it too. -/
theorem count_dst_port_one :
    (allGroups kinds 1 port_count).count "dst_port" =
      if address 0 kinds = some ip_port then
        1 + (if port_count ≤ 1 ∧ 2 ≤ port_count + portsBefore 0 kinds then 1 else 0) +
          if port_count = 0 ∧ portsBefore 0 kinds = 0 ∧ 1 ≤ kinds.count port then 1 else 0
      else if port_count ≤ 1 ∧ 2 ≤ port_count + kinds.count port then 1 else 0 := by
  induction kinds generalizing port_count with
  | nil => simp [allGroups]
  | cons kind kinds ih =>
    rw [allGroups]
    cases kind with
    | port =>
      rcases port_count with _ | _ | port_count <;>
        simp only [groups, ih, address_zero_cons, portsBefore, isAddress, List.count_append,
          List.count_cons_self] <;> grind
    | ip_port =>
      simp only [groups, count_dst_port_two _ _ 0, address_zero_cons, portsBefore, isAddress,
        List.count_append]
      grind
    | ip => simp [groups, isAddress, count_dst_port_two _ _ 0]
    | _ => simp [groups, ih, portsBefore, isAddress]

/-- Behind a first address with a port, whose port is counted among the port columns. -/
theorem count_dst_port_of_ip_port (h : address 0 kinds = some ip_port) :
    (allGroups kinds 0 port_count).count "dst_port" =
      (if port_count ≤ 1 ∧ 2 ≤ port_count + portsBefore 0 kinds then 1 else 0) +
        if address 1 kinds = some ip_port then
          1 + if port_count = 0 ∧ portsBefore 0 kinds = 0 ∧ 1 ≤ portsBefore 1 kinds then 1 else 0
        else if port_count = 0 ∧ portsBefore 0 kinds = 0 ∧ 1 ≤ kinds.count port then 1 else 0 := by
  induction kinds generalizing port_count with
  | nil => cases h
  | cons kind kinds ih =>
    rw [allGroups]
    cases kind with
    | port =>
      have hih := fun ports => ih ports h
      rcases port_count with _ | _ | port_count <;>
        simp only [groups, hih, address_succ_cons, portsBefore, isAddress, List.count_append,
          List.count_cons_self] <;> grind
    | ip_port =>
      simp only [groups, count_dst_port_one, address_succ_cons, portsBefore, isAddress,
        List.count_append]
      grind
    | ip => cases h
    | _ => simp [groups, ih _ h, portsBefore, isAddress]

/-- A first address without a port changes nothing for the destination port. -/
theorem count_dst_port_of_ne (h : address 0 kinds ≠ some ip_port) :
    (allGroups kinds 0 port_count).count "dst_port" =
      if address 1 kinds = some ip_port then
        1 + (if port_count ≤ 1 ∧ 2 ≤ port_count + portsBefore 1 kinds then 1 else 0) +
          if port_count = 0 ∧ portsBefore 1 kinds = 0 ∧ 1 ≤ kinds.count port then 1 else 0
      else if port_count ≤ 1 ∧ 2 ≤ port_count + kinds.count port then 1 else 0 := by
  induction kinds generalizing port_count with
  | nil => simp [allGroups]
  | cons kind kinds ih =>
    rw [allGroups]
    cases kind with
    | port =>
      have hih := fun ports => ih ports h
      rcases port_count with _ | _ | port_count <;>
        simp only [groups, hih, address_succ_cons, portsBefore, isAddress, List.count_append,
          List.count_cons_self] <;> grind
    | ip_port => exact absurd rfl h
    | ip => simp [groups, portsBefore, isAddress, count_dst_port_one]
    | _ => simp [groups, ih _ h, portsBefore, isAddress]

theorem count_dst_port_le_one_iff
    (hfirst : address 0 kinds = some ip_port → portsBefore 0 kinds = 0) :
    (allGroups kinds 0 0).count "dst_port" ≤ 1 ↔
      (address 1 kinds = some ip_port →
        if address 0 kinds = some ip_port then portsBefore 1 kinds = 0
        else portsBefore 1 kinds = 1 ∨ kinds.count port = 0) := by
  by_cases haddress : address 0 kinds = some ip_port
  · rw [count_dst_port_of_ip_port kinds 0 haddress, hfirst haddress, if_pos haddress]
    grind
  · rw [count_dst_port_of_ne kinds 0 haddress, if_neg haddress]
    have hle := portsBefore_le_count 1 kinds
    grind

/-- No name is taken twice if and only if the columns keep their ports apart. -/
theorem nodup_allGroups_iff : (allGroups kinds 0 0).Nodup ↔ Unrepeated kinds := by
  obtain ⟨hprotocol, haction, htimestamp⟩ := count_fixed kinds 0 0
  have hsrc_port := count_src_port_le_one_iff kinds
  have hdst_port := count_dst_port_le_one_iff kinds
  rw [List.nodup_iff_count_le_one]
  constructor
  · intro h
    have hfirst := hsrc_port.mp (h "src_port")
    exact ⟨hprotocol ▸ h _, haction ▸ h _, htimestamp ▸ h _, hfirst,
      (hdst_port hfirst).mp (h "dst_port")⟩
  · intro h name
    by_cases hname : name ∈ allGroups kinds 0 0
    · obtain ⟨hsrc_ip, hdst_ip⟩ := count_ip_le kinds 0 0
      have hnames := mem_allGroups kinds 0 0 hname
      simp only [List.mem_cons, List.not_mem_nil, or_false] at hnames
      rcases hnames with rfl | rfl | rfl | rfl | rfl | rfl | rfl
      · exact hsrc_ip
      · exact hdst_ip
      · exact hsrc_port.mpr h.first
      · exact (hdst_port h.first).mpr h.second
      · exact hprotocol ▸ h.protocol
      · exact haction ▸ h.action
      · exact htimestamp ▸ h.timestamp
    · rw [List.count_eq_zero_of_not_mem hname]
      exact Nat.zero_le 1

end

end ColumnKind

/-- A synthesized pattern names each of its groups once if and only if its samples have at most one
    column of protocols, one of actions and one of times, and no address with a port takes the name
    that a port column has taken or will take. -/
theorem groupNames_nodup_iff (crates : OnboarderCrates) (samples : List (List Char)) :
    (∀ pattern, synthesize_positional_regex crates samples = .ok pattern →
        (regex.groupNames false pattern).Nodup) ↔ Unrepeated (columnKinds crates samples) := by
  rw [← nodup_allGroups_iff]
  cases h : synthesize_positional_regex crates samples with
  | ok pattern =>
    rw [← groupNames_positional h]
    exact ⟨fun hall => hall pattern rfl, fun hnodup _ heq => by cases heq; exact hnodup⟩
  | error e =>
    have hcolumns : columns samples = [] := by
      unfold synthesize_positional_regex at h
      split at h
      · assumption
      · cases h
    rw [columnKinds, hcolumns]
    exact iff_of_true (fun _ heq => nomatch heq) List.nodup_nil

/-- Two protocols to a line: what was tunnelled, and in what. -/
def tunnelLines : List (List Char) := [str.lit "TCP UDP", str.lit "UDP TCP", str.lit "TCP TCP"]

def protocolCaptures (pattern : String) (text : List Char) : List Captures :=
  if pattern.toList = re_proto ∧ (text = str.lit "TCP" ∨ text = str.lit "UDP") then
    [⟨[some (0, 3), some (0, 3)]⟩]
  else []

theorem mem_protocolCaptures {pattern : String} {text : List Char} {captures : Captures}
    (h : captures ∈ protocolCaptures pattern text) :
    (text = str.lit "TCP" ∨ text = str.lit "UDP") ∧ captures = ⟨[some (0, 3), some (0, 3)]⟩ := by
  unfold protocolCaptures at h
  split at h
  · rename_i hmatch
    exact ⟨hmatch.2, List.mem_singleton.mp h⟩
  · cases h

/-- Libraries that know two protocols. -/
def protocolCrates : OnboarderCrates :=
  { kvCrates with
    captures_iter := protocolCaptures
    captures_aligned := fun _ _ _ hcaptures range hrange => by
      obtain ⟨htext, rfl⟩ := mem_protocolCaptures hcaptures
      obtain rfl : range = (0, 3) := by simpa using hrange
      rcases htext with rfl | rfl <;> exact ⟨_, rfl⟩
    captures_whole := fun _ _ _ hcaptures => by
      rw [(mem_protocolCaptures hcaptures).2]
      rfl
    captures_ordered := fun _ _ => by
      unfold protocolCaptures
      split
      · exact List.pairwise_singleton _ _
      · exact .nil
    capture_names := fun _ => [none, none]
    ip_from_str := fun _ => false }

theorem columnKinds_tunnelLines :
    columnKinds protocolCrates tunnelLines = [.protocol, .protocol] := by
  have hcolumns : columns tunnelLines =
      [[str.lit "TCP", str.lit "UDP", str.lit "TCP"],
        [str.lit "UDP", str.lit "TCP", str.lit "TCP"]] := by
    decide
  rw [columnKinds, hcolumns]
  rfl

/-- The pattern of those lines has two groups of one name. -/
theorem repeated_protocol :
    3 ≤ tunnelLines.length ∧
      ∃ pattern, synthesize_positional_regex protocolCrates tunnelLines = .ok pattern ∧
        regex.groupNames false pattern = ["protocol", "protocol"] ∧
        ¬ (regex.groupNames false pattern).Nodup := by
  obtain ⟨pattern, hpattern⟩ :
      ∃ pattern, synthesize_positional_regex protocolCrates tunnelLines = .ok pattern :=
    ⟨_, if_neg (by decide)⟩
  have hnames : regex.groupNames false pattern = ["protocol", "protocol"] := by
    rw [groupNames_positional hpattern, columnKinds_tunnelLines]
    rfl
  refine ⟨by decide, pattern, hpattern, hnames, ?_⟩
  rw [hnames]
  decide

end ulpf_ai.onboarder.Onboarder
