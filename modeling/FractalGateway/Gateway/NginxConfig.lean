import FractalGateway.Lib.Directives
import FractalGateway.Gateway.Tables

/-! The files of nginx, read back.

    The templates put names and addresses between literal text. As long as the names are words of
    the files' language, the files are read as the directives of the tables and nothing else: no
    host can end a directive, close a block or open another one. What nginx then makes of a
    connection, following the directives from the host to the servers, is what the tables say. -/

namespace FractalGateway
open Std Exec Directives Text

theorem SocketAddr.text_word (server : SocketAddr) : Word server.text := by
  refine ⟨?_, fun c hc => ?_⟩
  · cases server with
    | v4 ip port => simp [SocketAddr.text]
    | v6 ip port flowinfo scope_id =>
      rw [SocketAddr.text]
      split <;> simp
  · have hchars : addressChars.all (fun c => !special.contains c) = true := by decide
    simpa using List.all_eq_true.mp hchars c (server.text_over c hc)

/-- A word after the scheme of a URL is a word. -/
theorem word_after_http {name : String} (h : Word name) : Word ("http://" ++ name) :=
  Word.after (by decide) h

/-! ### Directives of the templates -/

def serverDirective (server : SocketAddr) : Directive := .line ["server", server.text]

def upstreamDirective (e : String × List SocketAddr) : Directive :=
  .block ["upstream", e.1] (e.2.map serverDirective)

/-- The server that takes TLS connections. -/
def tlsDirective : Directive :=
  .block ["server"] [.line ["listen", "443"], .line ["proxy_connect_timeout", "1s"],
    .line ["proxy_timeout", "60s"], .line ["proxy_pass", "$https_backend"], .line ["ssl_preread", "on"]]

/-- What `nginx.conf` says. -/
def Forwarding.streamDirectives (self : Forwarding) : List Directive :=
  [.block ["stream"]
    (.block ["map", "$ssl_preread_server_name", "$https_backend"]
        (self.https.forwarding.toList.map fun e => .line [e.1, e.2]) ::
      (self.https.upstream.toList.map upstreamDirective ++ [tlsDirective]))]

def locationDirective (upstream : String) : Directive :=
  .block ["location", "/"] [.line ["proxy_set_header", "Host", "$host"],
    .line ["proxy_set_header", "X-Real-IP", "$remote_addr"], .line ["proxy_pass", "http://" ++ upstream]]

def siteDirective (e : String × String) : Directive :=
  .block ["server"] [.line ["server_name", e.1], .line ["listen", "80"], locationDirective e.2]

/-- What `sites.nginx.conf` says. -/
def Forwarding.siteDirectives (self : Forwarding) : List Directive :=
  self.http.upstream.toList.map upstreamDirective ++ self.http.forwarding.toList.map siteDirective

/-- The hosts and the upstreams of a table are words. -/
structure Upstreams.Legible (side : Upstreams) : Prop where
  forwarding : ∀ e ∈ side.forwarding.toList, Word e.1 ∧ Word e.2
  upstream : ∀ e ∈ side.upstream.toList, Word e.1

/-! ### Reading the templates -/

section
variable (outer : List (List String × List Directive)) (done : List Directive)

theorem reads_entry {host upstream : String} (hhost : Word host) (hup : Word upstream) :
    Reads (.rest outer done) ("\n    " ++ host ++ " " ++ upstream ++ ";")
      (.rest outer (.line [host, upstream] :: done)) := by
  have hindent : Reads (.rest outer done) "\n    " (.rest outer done) := rfl
  have h := hindent.append (hhost.blank rfl rfl (hup.last rfl rfl))
  simp only [String.append_assoc] at h ⊢
  exact h

/-- A host with a semicolon ends its entry early, and the rest is an entry of another host. -/
example : Directives.read ("\n    " ++ "a;b" ++ " " ++ "https_x" ++ ";") =
    some [.line ["a"], .line ["b", "https_x"]] := rfl

theorem reads_serverLines {indent : String}
    (hindent : ∀ outer done, Reads (.rest outer done) indent (.rest outer done))
    (servers : List SocketAddr) :
    Reads (.rest outer done) (serverLines indent servers)
      (.rest outer ((servers.map serverDirective).reverse ++ done)) := by
  refine Reads.join fun server _ done => ?_
  have hnewline : Reads (.rest outer done) "\n" (.rest outer done) := rfl
  have hserver : Reads (.rest outer done) "server " ⟨[], ["server"], done, outer, false⟩ := rfl
  have h := hnewline.append ((hindent outer done).append
    (hserver.append (server.text_word.last rfl rfl)))
  simp only [String.append_assoc] at h ⊢
  exact h

/-- An upstream with its servers; the two templates write different blanks around them. -/
theorem reads_upstream {head indent opening closing name : String} (hname : Word name)
    (hhead : ∀ o d, Reads (.rest o d) head ⟨[], ["upstream"], d, o, false⟩)
    (hindent : ∀ o d, Reads (.rest o d) indent (.rest o d))
    (hopening : ∀ o d, Reads ⟨[], [name, "upstream"], d, o, false⟩ opening
      (.rest ((["upstream", name], d) :: o) []))
    (hclosing : ∀ o d body, Reads (.rest ((["upstream", name], d) :: o) body) closing
      (.rest o (.block ["upstream", name] body.reverse :: d))) (servers : List SocketAddr) :
    Reads (.rest outer done)
      (head ++ (name ++ (" " ++ (opening ++ (serverLines indent servers ++ closing)))))
      (.rest outer (upstreamDirective (name, servers) :: done)) := by
  have hservers := reads_serverLines ((["upstream", name], done) :: outer) [] hindent servers
  have hclosed := hclosing outer done ((servers.map serverDirective).reverse)
  rw [List.reverse_reverse] at hclosed
  rw [List.append_nil] at hservers
  exact (hhead outer done).append
    (hname.blank rfl rfl ((hopening outer done).append (hservers.append hclosed)))

theorem reads_location {upstream : String} (hup : Word ("http://" ++ upstream)) :
    Reads (.rest outer done) ("\n  location / \x7b\n" ++ ("    proxy_set_header Host $host;\n" ++
        ("    proxy_set_header X-Real-IP $remote_addr;\n" ++
          ("    proxy_pass " ++ (("http://" ++ upstream) ++ (";" ++ "\n  \x7d\n"))))))
      (.rest outer (locationDirective upstream :: done)) := by
  have hopen : Reads (.rest outer done) "\n  location / \x7b\n"
      (.rest ((["location", "/"], done) :: outer) []) := rfl
  have hhost : ∀ o d, Reads (.rest o d) "    proxy_set_header Host $host;\n"
      (.rest o (.line ["proxy_set_header", "Host", "$host"] :: d)) := fun _ _ => rfl
  have haddr : ∀ o d, Reads (.rest o d) "    proxy_set_header X-Real-IP $remote_addr;\n"
      (.rest o (.line ["proxy_set_header", "X-Real-IP", "$remote_addr"] :: d)) := fun _ _ => rfl
  have hpass : ∀ o d, Reads (.rest o d) "    proxy_pass " ⟨[], ["proxy_pass"], d, o, false⟩ :=
    fun _ _ => rfl
  have hclose : ∀ head before o body, Reads (.rest ((head, before) :: o) body) "\n  \x7d\n"
      (.rest o (.block head body.reverse :: before)) := fun _ _ _ _ => rfl
  exact hopen.append ((hhost _ _).append ((haddr _ _).append ((hpass _ _).append
    (hup.semicolon rfl rfl (hclose _ _ _ _)))))

theorem reads_site {host upstream : String} (hhost : Word host) (hup : Word ("http://" ++ upstream)) :
    Reads (.rest outer done)
      ("\nserver \x7b\n  server_name " ++ host ++ ";\n  listen 80;\n" ++
        "  #listen [::]:80 ipv6only=off;\n\n  location / \x7b\n" ++
        "    proxy_set_header Host $host;\n    proxy_set_header X-Real-IP $remote_addr;\n" ++
        "    proxy_pass http://" ++ upstream ++ ";\n  \x7d\n\x7d\n")
      (.rest outer (siteDirective (host, upstream) :: done)) := by
  -- the literal text is cut where a directive ends
  have hcut₁ : ";\n  listen 80;\n" = ";" ++ "\n  listen 80;\n" := by simp
  have hcut₂ : "  #listen [::]:80 ipv6only=off;\n\n  location / \x7b\n" =
      "  #listen [::]:80 ipv6only=off;\n" ++ "\n  location / \x7b\n" := by simp
  have hcut₃ : "    proxy_set_header Host $host;\n    proxy_set_header X-Real-IP $remote_addr;\n" =
      "    proxy_set_header Host $host;\n" ++ "    proxy_set_header X-Real-IP $remote_addr;\n" := by simp
  have hcut₄ : "    proxy_pass http://" = "    proxy_pass " ++ "http://" := by simp
  have hcut₅ : ";\n  \x7d\n\x7d\n" = ";" ++ ("\n  \x7d\n" ++ "\x7d\n") := by simp
  have hserver : Reads (.rest outer done) "\nserver \x7b\n  server_name "
      ⟨[], ["server_name"], [], (["server"], done) :: outer, false⟩ := rfl
  have hlisten : ∀ o d, Reads (.rest o d) "\n  listen 80;\n" (.rest o (.line ["listen", "80"] :: d)) :=
    fun _ _ => rfl
  have hcomment : ∀ o d, Reads (.rest o d) "  #listen [::]:80 ipv6only=off;\n" (.rest o d) :=
    fun _ _ => rfl
  have hclose : ∀ head before o body, Reads (.rest ((head, before) :: o) body) "\x7d\n"
      (.rest o (.block head body.reverse :: before)) := fun _ _ _ _ => rfl
  have h := hserver.append (hhost.semicolon rfl rfl ((hlisten _ _).append ((hcomment _ _).append
    ((reads_location _ _ hup).append (hclose _ _ _ _)))))
  simp only [hcut₁, hcut₂, hcut₃, hcut₄, hcut₅, String.append_assoc] at h ⊢
  exact h

end

/-! ### The files -/

section
variable {table : Forwarding}

/-- The text around the servers in `nginx.conf`. -/
theorem reads_stream_upstreams (h : table.https.Legible) (outer : List (List String × List Directive))
    (done : List Directive) :
    Reads (.rest outer done) (String.join (table.https.upstream.toList.map fun e =>
        "\n  upstream " ++ e.1 ++ " \x7b " ++ serverLines "    " e.2 ++ "\n  \x7d\n  "))
      (.rest outer ((table.https.upstream.toList.map upstreamDirective).reverse ++ done)) := by
  refine Reads.join fun e he done => ?_
  have hup : Reads (.rest outer done) ("\n  upstream " ++ (e.1 ++ (" " ++ ("\x7b " ++
      (serverLines "    " e.2 ++ "\n  \x7d\n  "))))) (.rest outer (upstreamDirective (e.1, e.2) :: done)) :=
    by refine reads_upstream outer done (h.upstream e he) ?_ ?_ ?_ ?_ e.2 <;> intros <;> rfl
  have hcut : " \x7b " = " " ++ "\x7b " := by simp
  simp only [hcut, String.append_assoc] at hup ⊢
  exact hup

/-- The text around the servers in `sites.nginx.conf`. -/
theorem reads_site_upstreams (h : table.http.Legible) (outer : List (List String × List Directive))
    (done : List Directive) :
    Reads (.rest outer done) (String.join (table.http.upstream.toList.map fun e =>
        "upstream " ++ e.1 ++ " \x7b" ++ serverLines "  " e.2 ++ "\n\x7d\n\n"))
      (.rest outer ((table.http.upstream.toList.map upstreamDirective).reverse ++ done)) := by
  refine Reads.join fun e he done => ?_
  have hup : Reads (.rest outer done) ("upstream " ++ (e.1 ++ (" " ++ ("\x7b" ++
      (serverLines "  " e.2 ++ "\n\x7d\n\n"))))) (.rest outer (upstreamDirective (e.1, e.2) :: done)) :=
    by refine reads_upstream outer done (h.upstream e he) ?_ ?_ ?_ ?_ e.2 <;> intros <;> rfl
  have hcut : " \x7b" = " " ++ "\x7b" := by simp
  simp only [hcut, String.append_assoc] at hup ⊢
  exact hup

/-- `nginx.conf`, cut where a directive ends. -/
theorem Forwarding.nginx_conf_eq (table : Forwarding) : table.nginx_conf =
    "stream \x7b\n" ++ ("  map $ssl_preread_server_name $https_backend \x7b " ++
    (String.join (table.https.forwarding.toList.map fun e =>
      "\n    " ++ e.1 ++ " " ++ e.2 ++ ";") ++
    ("\n  \x7d\n  " ++
    (String.join (table.https.upstream.toList.map fun e =>
      "\n  upstream " ++ e.1 ++ " \x7b " ++ serverLines "    " e.2 ++ "\n  \x7d\n  ") ++
    ("\n  server \x7b\n    listen 443;\n" ++ ("    proxy_connect_timeout 1s;\n    proxy_timeout 60s;\n" ++
    ("    proxy_pass $https_backend;\n    ssl_preread on;\n" ++ "  \x7d\n\x7d\n"))))))) := by
  have hcut₁ : "stream \x7b\n  map $ssl_preread_server_name $https_backend \x7b " =
      "stream \x7b\n" ++ "  map $ssl_preread_server_name $https_backend \x7b " := by simp
  have hcut₂ : "\n  server \x7b\n    listen 443;\n    proxy_connect_timeout 1s;\n    proxy_timeout 60s;\n" =
      "\n  server \x7b\n    listen 443;\n" ++
        "    proxy_connect_timeout 1s;\n    proxy_timeout 60s;\n" := by simp
  have hcut₃ : "    proxy_pass $https_backend;\n    ssl_preread on;\n  \x7d\n\x7d\n" =
      "    proxy_pass $https_backend;\n    ssl_preread on;\n" ++ "  \x7d\n\x7d\n" := by simp
  unfold Forwarding.nginx_conf
  simp only [hcut₁, hcut₂, hcut₃, String.append_assoc]

/-- `nginx.conf` is read as what it should say. -/
theorem Forwarding.read_nginx_conf (h : table.https.Legible) :
    Directives.read table.nginx_conf = some table.streamDirectives := by
  have hopen : Reads (.rest [] []) "stream \x7b\n" (.rest [(["stream"], [])] []) := rfl
  have hmap : ∀ o d, Reads (.rest o d) "  map $ssl_preread_server_name $https_backend \x7b "
      (.rest ((["map", "$ssl_preread_server_name", "$https_backend"], d) :: o) []) := fun _ _ => rfl
  have hentries : ∀ o d, Reads (.rest o d)
      (String.join (table.https.forwarding.toList.map fun e => "\n    " ++ e.1 ++ " " ++ e.2 ++ ";"))
      (.rest o ((table.https.forwarding.toList.map fun e => .line [e.1, e.2]).reverse ++ d)) :=
    fun o d => Reads.join fun e he done => reads_entry _ done (h.forwarding e he).1 (h.forwarding e he).2
  have hclose : ∀ head before o body, Reads (.rest ((head, before) :: o) body) "\n  \x7d\n  "
      (.rest o (.block head body.reverse :: before)) := fun _ _ _ _ => rfl
  have hserver : ∀ o d, Reads (.rest o d) "\n  server \x7b\n    listen 443;\n"
      (.rest ((["server"], d) :: o) [.line ["listen", "443"]]) := fun _ _ => rfl
  have htimeout : ∀ o d, Reads (.rest o d) "    proxy_connect_timeout 1s;\n    proxy_timeout 60s;\n"
      (.rest o (.line ["proxy_timeout", "60s"] :: .line ["proxy_connect_timeout", "1s"] :: d)) :=
    fun _ _ => rfl
  have hpass : ∀ o d, Reads (.rest o d) "    proxy_pass $https_backend;\n    ssl_preread on;\n"
      (.rest o (.line ["ssl_preread", "on"] :: .line ["proxy_pass", "$https_backend"] :: d)) :=
    fun _ _ => rfl
  have hend : ∀ head before head' before' o body,
      Reads (.rest ((head, before) :: (head', before') :: o) body) "  \x7d\n\x7d\n"
        (.rest o (.block head' (.block head body.reverse :: before).reverse :: before')) :=
    fun _ _ _ _ _ _ => rfl
  rw [table.nginx_conf_eq, read_eq (hopen.append ((hmap _ _).append ((hentries _ _).append
    ((hclose _ _ _ _).append ((reads_stream_upstreams h _ _).append ((hserver _ _).append
      ((htimeout _ _).append ((hpass _ _).append (hend _ _ _ _ _ _)))))))))]
  simp [Forwarding.streamDirectives, tlsDirective]

/-- `sites.nginx.conf` is read as what it should say. -/
theorem Forwarding.read_sites_nginx_conf (h : table.http.Legible) :
    Directives.read table.sites_nginx_conf = some table.siteDirectives := by
  have hsites : ∀ done, Reads (.rest [] done)
      (String.join (table.http.forwarding.toList.map fun e =>
        "\nserver \x7b\n  server_name " ++ e.1 ++ ";\n  listen 80;\n" ++
        "  #listen [::]:80 ipv6only=off;\n\n  location / \x7b\n" ++
        "    proxy_set_header Host $host;\n    proxy_set_header X-Real-IP $remote_addr;\n" ++
        "    proxy_pass http://" ++ e.2 ++ ";\n  \x7d\n\x7d\n"))
      (.rest [] ((table.http.forwarding.toList.map siteDirective).reverse ++ done)) := fun done =>
    Reads.join fun e he done =>
      reads_site [] done (h.forwarding e he).1 (word_after_http (h.forwarding e he).2)
  have hend : ∀ o d, Reads (.rest o d) "\n" (.rest o d) := fun _ _ => rfl
  rw [Forwarding.sites_nginx_conf, read_eq (((reads_site_upstreams h [] []).append (hsites _)).append
    (hend _ _))]
  simp [Forwarding.siteDirectives]

end

/-- The file of a scheme. -/
def Forwarding.file (self : Forwarding) : Scheme → String
  | .https => self.nginx_conf
  | .http => self.sites_nginx_conf

def Forwarding.directives (self : Forwarding) : Scheme → List Directive
  | .https => self.streamDirectives
  | .http => self.siteDirectives

theorem Forwarding.read_file {table : Forwarding} {scheme : Scheme} (h : (table.side scheme).Legible) :
    Directives.read (table.file scheme) = some (table.directives scheme) := by
  cases scheme with
  | http => exact Forwarding.read_sites_nginx_conf h
  | https => exact Forwarding.read_nginx_conf h

/-! ### Following the directives -/

/-- The body of the first block with a head. -/
def bodyOf (head : List String) (directives : List Directive) : Option (List Directive) :=
  directives.findSome? fun
    | .block head' body => if head' = head then some body else none
    | .line _ => none

/-- The value of a line with a name. -/
def valueOf (name : String) (directives : List Directive) : Option String :=
  directives.findSome? fun
    | .line [name', value] => if name' = name then some value else none
    | _ => none

/-- The upstream of a site: where its location passes requests to. -/
def siteUpstream (site : List Directive) : Option String :=
  (bodyOf ["location", "/"] site).bind fun location =>
    (valueOf "proxy_pass" location).bind fun url =>
      if starts_with url "http://" then some (String.ofList (url.toList.drop 7)) else none

/-- The upstream of a host, if the directive is its site. -/
def siteFor (host : String) : Directive → Option String
  | .block head site =>
    if head = ["server"] ∧ valueOf "server_name" site = some host then siteUpstream site else none
  | .line _ => none

/-- The upstream a file has for a host: where the map takes the server name of a TLS connection, or
    where the first site of that name passes a request. -/
def hostUpstream (file : List Directive) (host : String) : Scheme → Option String
  | .https => (bodyOf ["stream"] file).bind fun stream =>
      (bodyOf ["map", "$ssl_preread_server_name", "$https_backend"] stream).bind (valueOf host)
  | .http => file.findSome? (siteFor host)

/-- The directives the upstreams are among. -/
def scopeOf (file : List Directive) : Scheme → List Directive
  | .https => (bodyOf ["stream"] file).getD []
  | .http => file

/-- The servers an upstream lists. -/
def serversOf (file : List Directive) (scheme : Scheme) (upstream : String) : Option (List String) :=
  (bodyOf ["upstream", upstream] (scopeOf file scheme)).map fun body => body.filterMap fun
    | .line [name, server] => if name = "server" then some server else none
    | _ => none

theorem bodyOf_block (head head' : List String) (body rest : List Directive) :
    bodyOf head (.block head' body :: rest) = if head' = head then some body else bodyOf head rest := by
  by_cases h : head' = head <;> simp [bodyOf, h]

theorem bodyOf_append (head : List String) (a b : List Directive) :
    bodyOf head (a ++ b) = (bodyOf head a).or (bodyOf head b) := List.findSome?_append

theorem bodyOf_upstreams (side : Upstreams) (name : String) :
    bodyOf ["upstream", name] (side.upstream.toList.map upstreamDirective) =
      side.upstream[name]?.map (List.map serverDirective) := by
  rw [bodyOf, List.findSome?_map, ← OrdMap.findSome_toList]
  congr 1
  funext e
  by_cases h : e.1 = name <;> simp [upstreamDirective, h]

theorem valueOf_entries (side : Upstreams) (host : String) :
    valueOf host (side.forwarding.toList.map fun e => .line [e.1, e.2]) = side.forwarding[host]? := by
  have h := OrdMap.findSome_toList side.forwarding host id
  rw [Option.map_id] at h
  rw [valueOf, List.findSome?_map]
  exact h

/-- A site names its host and passes requests to its upstream. -/
theorem siteUpstream_eq (e : String × String) :
    siteUpstream [.line ["server_name", e.1], .line ["listen", "80"], locationDirective e.2] = some e.2 := by
  have hstarts : starts_with ("http://" ++ e.2) "http://" = true := by
    simp [starts_with]
  simp [siteUpstream, bodyOf, locationDirective, valueOf, hstarts]

theorem siteFor_sites (side : Upstreams) (host : String) :
    (side.forwarding.toList.map siteDirective).findSome? (siteFor host) = side.forwarding[host]? := by
  have h := OrdMap.findSome_toList side.forwarding host id
  rw [Option.map_id] at h
  rw [List.findSome?_map, ← show _ = side.forwarding[host]? from h]
  congr 1
  funext e
  have hname : valueOf "server_name" [.line ["server_name", e.1], .line ["listen", "80"],
      locationDirective e.2] = some e.1 := by simp [valueOf]
  simp [siteDirective, siteFor, hname, siteUpstream_eq]

/-- Among the directives of a file an upstream is where the table has it. -/
theorem Forwarding.bodyOf_scope (table : Forwarding) (scheme : Scheme) (name : String) :
    bodyOf ["upstream", name] (scopeOf (table.directives scheme) scheme) =
      (table.side scheme).upstream[name]?.map (List.map serverDirective) := by
  rw [← bodyOf_upstreams]
  cases scheme with
  | https =>
    rw [Forwarding.directives, Forwarding.streamDirectives, scopeOf, bodyOf_block, if_pos rfl,
      Option.getD_some, bodyOf_block, if_neg (by simp), bodyOf_append, tlsDirective, bodyOf_block,
      if_neg (by simp)]
    exact Option.or_none
  | http =>
    have hsites : bodyOf ["upstream", name] (table.http.forwarding.toList.map siteDirective) = none := by
      rw [bodyOf, List.findSome?_map]
      exact List.findSome?_eq_none_iff.mpr fun e _ => by simp [siteDirective]
    rw [Forwarding.directives, Forwarding.siteDirectives, scopeOf, bodyOf_append, hsites]
    exact Option.or_none

/-- A file has the servers of the table. -/
theorem Forwarding.serversOf_eq (table : Forwarding) (scheme : Scheme) (name : String) :
    serversOf (table.directives scheme) scheme name =
      (table.side scheme).upstream[name]?.map (List.map SocketAddr.text) := by
  have hservers : ∀ servers : List SocketAddr, (servers.map serverDirective).filterMap (fun
      | .line [name, server] => if name = "server" then some server else none
      | _ => none) = servers.map SocketAddr.text := by
    intro servers
    rw [List.filterMap_map, ← List.filterMap_eq_map]
    rfl
  rw [serversOf, table.bodyOf_scope, Option.map_map]
  congr 1
  funext servers
  exact hservers servers

/-- A file has the upstreams of the table. -/
theorem Forwarding.hostUpstream_eq (table : Forwarding) (scheme : Scheme) (host : String) :
    hostUpstream (table.directives scheme) host scheme = (table.side scheme).forwarding[host]? := by
  cases scheme with
  | https =>
    rw [Forwarding.directives, Forwarding.streamDirectives, hostUpstream, bodyOf_block, if_pos rfl,
      Option.bind_some, bodyOf_block, if_pos rfl, Option.bind_some]
    exact valueOf_entries table.https host
  | http =>
    have hupstreams : (table.http.upstream.toList.map upstreamDirective).findSome? (siteFor host) = none := by
      rw [List.findSome?_map]
      exact List.findSome?_eq_none_iff.mpr fun e _ => by simp [upstreamDirective, siteFor]
    rw [Forwarding.directives, Forwarding.siteDirectives, hostUpstream, List.findSome?_append, hupstreams,
      Option.none_or]
    exact siteFor_sites table.http host

/-! ### Tables with words for hosts -/

/-- A proxied URL has a host that is a word; the `url` crate leaves semicolons and braces in hosts. -/
def Url.Legible (url : Url) : Prop := ∀ (scheme : Scheme) (host : String),
  url.hostOn scheme = some host → Word host

/-- The hosts a call adds for are words. -/
def ForwardingCall.Legible : ForwardingCall → Prop
  | .add network => ∀ url ∈ network.proxy, url.Legible
  | .add_custom url _ => url.Legible

theorem NetworkState.port_mappings_url {build : Build} {network : NetworkState}
    {mappings : List (Url × UInt16 × SocketAddr)} (h : network.port_mappings build = .ok mappings) :
    ∀ m ∈ mappings, m.1 ∈ network.proxy := by
  intro m hm
  obtain ⟨t, ht, hport⟩ := mapM_ok_mem h hm
  obtain ⟨port, _, hreturn⟩ := except_bind_ok_iff.mp hport
  cases hreturn
  obtain ⟨p, hp, hin⟩ := List.mem_flatMap.mp (List.fst_mem_of_mem_zipIdx ht)
  obtain ⟨addr, _, heq⟩ := List.mem_map.mp hin
  rw [← heq]
  exact (OrdMap.mem_iff_get _ _).mpr ⟨p.2, (OrdMap.mem_toList_iff _ _ _).mp hp⟩

theorem ForwardingCall.Legible.adds {build : Build} {call : ForwardingCall}
    {added : List (Url × SocketAddr)} (h : call.Legible) (hadds : call.adds build = .ok added) :
    ∀ a ∈ added, a.1.Legible := by
  cases call with
  | add network =>
    obtain ⟨mappings, hmap, hreturn⟩ := except_bind_ok_iff.mp hadds
    cases hreturn
    intro a ha
    obtain ⟨m, hm, rfl⟩ := List.mem_map.mp ha
    exact h m.1 (NetworkState.port_mappings_url hmap m hm)
  | add_custom url socket =>
    cases hadds
    intro a ha
    rw [List.mem_singleton.mp ha]
    exact h

theorem Upstreams.addAll_legible {base32 : String → String} {scheme : Scheme}
    {pushes : List (String × SocketAddr)} (hbase : ∀ host, Word host → Word (base32 host))
    (h : ∀ p ∈ pushes, Word p.1) : (addAll base32 scheme pushes).Legible := by
  have hname : ∀ host upstream, (addAll base32 scheme pushes).forwarding[host]? = some upstream →
      Word host ∧ Word upstream := by
    intro host upstream hget
    rw [addAll_forwarding] at hget
    split at hget
    · next hm =>
      obtain ⟨p, hp, rfl⟩ := List.mem_map.mp hm
      cases hget
      refine ⟨h p hp, Word.after ?_ (hbase p.1 (h p hp))⟩
      cases scheme <;> decide
    · cases hget
  refine ⟨fun e he => hname e.1 e.2 ((OrdMap.mem_toList_iff _ _ _).mp he), fun e he => ?_⟩
  obtain ⟨host, hhost⟩ := addAll_upstream_host pushes e.1 e.2 ((OrdMap.mem_toList_iff _ _ _).mp he)
  exact (hname host e.1 hhost).2

section
variable {deploy : Deployment} (hbase : ∀ host, Word host → Word (deploy.base32 host))
include hbase

theorem Forwarding.pushAll_legible {pushes : List (Url × SocketAddr)}
    (h : ∀ p ∈ pushes, p.1.Legible) (scheme : Scheme) :
    ((pushAll deploy pushes).side scheme).Legible := by
  rw [pushAll_side]
  refine Upstreams.addAll_legible hbase fun p hp => ?_
  obtain ⟨push, hpush, hsome⟩ := List.mem_filterMap.mp hp
  obtain ⟨host, hhost, rfl⟩ := Option.map_eq_some_iff.mp hsome
  exact h push hpush scheme host hhost

theorem Forwarding.calls_legible {calls : List ForwardingCall} {table : Forwarding}
    (hcalls : Forwarding.calls deploy calls = .ok table) (h : ∀ call ∈ calls, call.Legible)
    (scheme : Scheme) : (table.side scheme).Legible := by
  have hnew : Forwarding.new = pushAll deploy [] := rfl
  rw [Forwarding.calls, hnew] at hcalls
  obtain ⟨added, hadded, rfl⟩ := calls_pushAll deploy hcalls
  refine pushAll_legible hbase (fun p hp => ?_) scheme
  rw [List.nil_append] at hp
  obtain ⟨adds, hadds, hin⟩ := List.mem_flatten.mp hp
  obtain ⟨call, hcall, hok⟩ := mapM_ok_mem hadded hadds
  exact (h call hcall).adds hok p hin

end

/-! ### What the files tell apart -/

/-- The same hosts with the same upstreams, and servers with the same texts. -/
structure Upstreams.SameRoutes (side side' : Upstreams) : Prop where
  forwarding : side.forwarding = side'.forwarding
  upstream : OrdMap.AgreeBy (List.map SocketAddr.text) side.upstream side'.upstream

theorem serverLines_eq (indent : String) (servers : List SocketAddr) :
    serverLines indent servers = String.join ((servers.map SocketAddr.text).map fun text =>
      "\n" ++ indent ++ "server " ++ text ++ ";") := by
  rw [List.map_map]
  rfl

/-- The blocks of upstreams depend on the texts of the servers only. -/
theorem join_upstreams_congr {upstream upstream' : ExtTreeMap String (List SocketAddr)}
    (h : OrdMap.AgreeBy (List.map SocketAddr.text) upstream upstream')
    (before between indent after : String) :
    String.join (upstream.toList.map fun e =>
        before ++ e.1 ++ between ++ serverLines indent e.2 ++ after) =
      String.join (upstream'.toList.map fun e =>
        before ++ e.1 ++ between ++ serverLines indent e.2 ++ after) := by
  simp only [serverLines_eq]
  exact congrArg String.join (h.toList_map fun e => before ++ e.1 ++ between ++
    String.join (e.2.map fun text => "\n" ++ indent ++ "server " ++ text ++ ";") ++ after)

theorem Upstreams.SameRoutes.file_eq {table table' : Forwarding} {scheme : Scheme}
    (h : (table.side scheme).SameRoutes (table'.side scheme)) : table.file scheme = table'.file scheme := by
  cases scheme with
  | https =>
    have hforwarding : table.https.forwarding = table'.https.forwarding := h.forwarding
    have hupstream : OrdMap.AgreeBy (List.map SocketAddr.text) table.https.upstream
      table'.https.upstream := h.upstream
    show table.nginx_conf = table'.nginx_conf
    unfold Forwarding.nginx_conf
    simp only [hforwarding, join_upstreams_congr hupstream]
  | http =>
    have hforwarding : table.http.forwarding = table'.http.forwarding := h.forwarding
    have hupstream : OrdMap.AgreeBy (List.map SocketAddr.text) table.http.upstream
      table'.http.upstream := h.upstream
    show table.sites_nginx_conf = table'.sites_nginx_conf
    unfold Forwarding.sites_nginx_conf
    simp only [hforwarding, join_upstreams_congr hupstream]

theorem Forwarding.file_eq_iff {table table' : Forwarding} {scheme : Scheme}
    (h : (table.side scheme).Legible) (h' : (table'.side scheme).Legible) :
    table.file scheme = table'.file scheme ↔ (table.side scheme).SameRoutes (table'.side scheme) := by
  refine ⟨fun heq => ?_, Upstreams.SameRoutes.file_eq⟩
  have hread := Forwarding.read_file h
  rw [heq, Forwarding.read_file h'] at hread
  have hdirectives := Option.some.inj hread
  constructor
  · refine ExtTreeMap.ext_getElem? fun host => ?_
    rw [← table.hostUpstream_eq, ← table'.hostUpstream_eq, hdirectives]
  · intro name
    rw [← table.serversOf_eq, ← table'.serversOf_eq, hdirectives]

/-- Whatever calls have made the tables, a file is read as its side of them, and two files are the
    same exactly if they route alike: only what the text of a server leaves out is lost. -/
theorem nginx_files_tell_tables_apart (deploy : Deployment)
    (hbase : ∀ host, Word host → Word (deploy.base32 host)) (calls calls' : List ForwardingCall)
    (hhosts : ∀ call ∈ calls, call.Legible) (hhosts' : ∀ call ∈ calls', call.Legible)
    (table table' : Forwarding) (h : Forwarding.calls deploy calls = .ok table)
    (h' : Forwarding.calls deploy calls' = .ok table') (scheme : Scheme) :
    (∃ file, Directives.read (table.file scheme) = some file ∧
      (∀ host, hostUpstream file host scheme = (table.side scheme).forwarding[host]?) ∧
      ∀ name, serversOf file scheme name =
        (table.side scheme).upstream[name]?.map (List.map SocketAddr.text)) ∧
    (table.file scheme = table'.file scheme ↔
      (table.side scheme).SameRoutes (table'.side scheme)) := by
  have hlegible := Forwarding.calls_legible hbase h hhosts scheme
  exact ⟨⟨table.directives scheme, Forwarding.read_file hlegible, table.hostUpstream_eq scheme,
      table.serversOf_eq scheme⟩,
    Forwarding.file_eq_iff hlegible (Forwarding.calls_legible hbase h' hhosts' scheme)⟩

namespace Bench

theorem base32_word {host : String} (h : Word host) : Word (base32 host) := by
  unfold base32
  split
  · decide
  · exact Word.after (by decide) h

theorem network_legible (port : UInt16) : ∀ url ∈ (network port).proxy, url.Legible := by
  intro u hu scheme host hhost
  rcases (OrdMap.mem_insert _ _ _ _).mp hu with rfl | hu
  · obtain ⟨_, hsome⟩ := Url.hostOn_eq_some.mp hhost
    cases hsome
    decide
  · simp at hu

end Bench

/-- Two ports, two files. -/
theorem nginx_files_tell_tables_apart_bench : ∃ table table' : Forwarding,
    Forwarding.calls Bench.deploy [.add (Bench.network 5000)] = .ok table ∧
    Forwarding.calls Bench.deploy [.add (Bench.network 6000)] = .ok table' ∧
    (∃ file, Directives.read (table.file .https) = some file ∧
      hostUpstream file "a.example" .https = table.https.forwarding["a.example"]?) ∧
    (table.file .https = table'.file .https ↔ table.https.SameRoutes table'.https) := by
  have hreturn : ∀ port, ∃ table,
      Forwarding.calls Bench.deploy [.add (Bench.network port)] = .ok table := by
    intro port
    refine Forwarding.calls_return Bench.deploy fun network hn => Or.inr ?_
    have hshort : (Bench.network 0).targets.length ≤ 63536 := by decide
    cases List.mem_singleton.mp hn
    exact hshort
  obtain ⟨table, h⟩ := hreturn 5000
  obtain ⟨table', h'⟩ := hreturn 6000
  have hlegible : ∀ port, ∀ call ∈ [ForwardingCall.add (Bench.network port)], call.Legible := by
    intro port call hc
    rw [List.mem_singleton.mp hc]
    exact Bench.network_legible port
  obtain ⟨⟨file, hread, hhost, _⟩, hiff⟩ := nginx_files_tell_tables_apart Bench.deploy
    (fun _ => Bench.base32_word) _ _ (hlegible 5000) (hlegible 6000) table table' h h' .https
  exact ⟨table, table', h, h', ⟨file, hread, hhost _⟩, hiff⟩

end FractalGateway
