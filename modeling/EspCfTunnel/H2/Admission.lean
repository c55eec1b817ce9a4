import EspCfTunnel.H2.Walk

/-!
# The bound on application streams

How many HTTP requests the application holds: those it has accepted and of whose end it has not been
told. The admission count of `received_frame` leaves out streams that are reset, but the application
holds such a stream until nghttp2 reports that it is closed.
-/

namespace EspCfTunnel.H2

open EspCfTunnel

section
variable {w : World} {t t' : Trace} {log : List Note}

end

end EspCfTunnel.H2
