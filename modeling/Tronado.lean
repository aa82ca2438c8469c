import Tronado.Amounts
import Tronado.Authenticity
import Tronado.Backoff
import Tronado.CatchAll
import Tronado.Client
import Tronado.Closure
import Tronado.Copying
import Tronado.Coverage
import Tronado.Crediting
import Tronado.Disputes
import Tronado.Forgery
import Tronado.Gather
import Tronado.Headers
import Tronado.KeyIndependence
import Tronado.Mirror
import Tronado.Nulls
import Tronado.OrderPrice
import Tronado.PaymentFlow
import Tronado.PaymentPage
import Tronado.Pipeline
import Tronado.RetryAfter
import Tronado.Secrecy
import Tronado.Sending
import Tronado.Separation
import Tronado.Timestamps
