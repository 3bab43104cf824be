import Lwk.Basic
import Lwk.Descriptor
import Lwk.Store
import Lwk.Wallet.Address
import Lwk.Wallet.Utxos
import Lwk.Wallet.Balance
import Lwk.Wallet.Transactions
import Lwk.Wallet.Run
import Lwk.Wallet.Sync
import Lwk.Electrum.Client
import Lwk.Electrum.Status
import Lwk.Electrum.Tip
import Lwk.Electrum.Url
import Lwk.Electrum.CanonicalUrl
import Lwk.Jade
